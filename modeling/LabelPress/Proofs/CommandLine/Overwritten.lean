import LabelPress.Proofs.CommandLine.Delivered
import LabelPress.Proofs.Files.Suffix

/-!
# What becomes of the input

A run that is not told where its document goes puts it beside the input, under the name of the input with
the suffix of the surface. Names tell files apart, so the input is kept if it has another suffix
(`CommandLine.read_deliver_of_name`). If it has this very suffix, the document takes the place of the
input.
-/

namespace LabelPress

/-! ## Words that ask for an output -/

namespace Word

/-- The option with a value for which a word asks, if it asks for one. -/
def valued? : Word → Option Flag
  | .option f short joined =>
    match Arguments.request f short joined with
    | .ok (.complete _ valued) => valued.map (·.1)
    | .ok (.open _ last) => some last
    | .error _ => none
  | _ => none

end Word

namespace Arguments

/-- Whether one of the words asks for a place for the document. -/
def asksForOutput (words : List String) : Bool :=
  match Word.classifyAll words with
  | .ok ws => ws.any fun w => w.valued? == some .output
  | .error _ => false

variable {a b : Arguments} {f : Flag}

theorem output_turnOn (h : a.turnOn f = .ok b) : b.output = a.output := by
  cases f <;> cases h <;> rfl

theorem output_turnOnAll {flags : List Flag} (h : a.turnOnAll flags = .ok b) :
    b.output = a.output := by
  induction flags generalizing a with
  | nil =>
    cases h
    rfl
  | cons f flags ih =>
    obtain ⟨a', ha', h⟩ := Except.bind_eq_ok.1 (show _ = _ from h)
    exact (ih h).trans (output_turnOn ha')

theorem output_setTo {text : String} (hf : f ≠ .output) (h : a.setTo f text = .ok b) :
    b.output = a.output := by
  unfold setTo at h
  simp only at h
  cases f with
  | output => exact absurd rfl hf
  | config | encoding | help | verbose =>
    cases h
    rfl
  | width | height | resolution | surface =>
    simp only at h
    split at h <;> cases h
    rfl

theorem output_set {text : String} (hf : f ≠ .output) (h : a.set f text = .ok b) :
    b.output = a.output := by
  unfold set at h
  split at h
  · cases h
    cases f with
    | output => exact absurd rfl hf
    | _ => rfl
  · exact output_setTo hf h

/-- What an option does, with the value that may follow it, before the words behind it are taken. -/
theorem consume_option {short : Bool} {joined : Option (List Char)} {ws : List Word}
    (hword : (Word.option f short joined).valued? ≠ some .output)
    (h : consume (.option f short joined :: ws) a = .ok b) :
    ∃ vs c, vs <:+ ws ∧ c.output = a.output ∧ consume vs c = .ok b := by
  rw [consume] at h
  obtain ⟨r, hr, h⟩ := Except.bind_eq_ok.1 h
  unfold Word.valued? at hword
  simp only [hr] at hword
  -- a group of letters may end in an option that takes its value from the next word
  cases r with
  | complete flags valued =>
    obtain ⟨c, hc, h⟩ := Except.bind_eq_ok.1 h
    cases valued with
    | none => exact ⟨ws, c, List.suffix_rfl, output_turnOnAll hc, h⟩
    | some value =>
      obtain ⟨g, text⟩ := value
      obtain ⟨d, hd, h⟩ := Except.bind_eq_ok.1 h
      have hg : g ≠ .output := by simpa using hword
      exact ⟨ws, d, List.suffix_rfl, (output_set hg hd).trans (output_turnOnAll hc), h⟩
  | «open» flags g =>
    have hg : g ≠ .output := by simpa using hword
    simp only at h
    split at h
    · obtain ⟨c, hc, h⟩ := Except.bind_eq_ok.1 h
      obtain ⟨d, hd, h⟩ := Except.bind_eq_ok.1 h
      exact ⟨_, d, List.suffix_cons _ _, (output_setTo hg hd).trans (output_turnOnAll hc), h⟩
    · cases h

/-- Without a word that asks for it there is no place for the document. -/
theorem output_consume {ws : List Word} (hws : ∀ w ∈ ws, w.valued? ≠ some .output)
    (h : consume ws a = .ok b) : b.output = a.output := by
  -- by induction on the number of words, as some are taken together with the word behind them
  induction hn : ws.length using Nat.strongRecOn generalizing ws a with
  | _ n ih =>
    have hbehind {w : Word} {us vs : List Word} {c : Arguments} (hrest : consume vs c = .ok b)
        (hcons : ws = w :: us) (hvs : vs <:+ us) (hc : c.output = a.output) :
        b.output = a.output := by
      subst hcons
      have hshort : vs.length < n := hn ▸ Nat.lt_succ_of_le hvs.length_le
      have hnone : ∀ w ∈ vs, w.valued? ≠ some .output :=
        fun w hw => hws w (List.mem_cons_of_mem _ (hvs.subset hw))
      exact (ih _ hshort hnone hrest rfl).trans hc
    rw [consume.eq_def] at h
    split at h
    · cases h
      rfl
    · exact hbehind h rfl List.suffix_rfl rfl
    · split at h <;> exact hbehind h rfl (List.suffix_cons _ _) rfl
    · split at h <;> exact hbehind h rfl List.suffix_rfl rfl
    · split at h <;> exact hbehind h rfl (List.suffix_cons _ _) rfl
    · exact hbehind h rfl List.suffix_rfl rfl
    · obtain ⟨vs, c, hvs, hc, h⟩ := consume_option (hws _ List.mem_cons_self) (by rwa [consume])
      exact hbehind h rfl hvs hc

/-- The words of a command line ask for a place, or there is none. -/
theorem output_parse {words : List String} (hwords : asksForOutput words = false)
    (h : parse words = .ok a) : a.output = none := by
  obtain ⟨ws, hclassify, h⟩ := Except.bind_eq_ok.1 h
  obtain ⟨b, hconsume, h⟩ := Except.bind_eq_ok.1 h
  unfold asksForOutput at hwords
  rw [hclassify] at hwords
  have hws : ∀ w ∈ ws, w.valued? ≠ some .output := by simpa using hwords
  have hnone : b.output = none := output_consume hws hconsume
  split at h
  · cases h
  · split at h <;> cases h
    exact hnone

/-- The input has the suffix of the surface already. -/
def SharesSuffix (a : Arguments) : Prop :=
  ∃ form, a.surface = some form ∧ (CommandLine.inputPath a).HasSuffix form.suffix

end Arguments

/-! ## Where the document goes -/

/-- The suffix of a surface begins with its only point. -/
theorem Surface.Form.suffix_eq (form : Surface.Form) :
    ∃ ext, form.suffix.toList = '.' :: ext ∧ ext ≠ [] ∧ '.' ∉ ext := by
  cases form
  · exact ⟨['j', 's', 'o', 'n'], by decide⟩
  · exact ⟨['p', 'd', 'f'], by decide⟩
  · exact ⟨['t', 'x', 't'], by decide⟩

namespace CommandLine

variable {library : Codec.Library} {words : List String} {a : Arguments} {tree : FileTree} {input output r : Path}
  {document : Document} {form : Surface.Form} {c : Contents}

theorem outputPath_of_none (hnone : a.output = none) :
    outputPath a input = .ok output ↔
      ∃ form, a.surface = some form ∧ input.withSuffix? form.suffix = some output := by
  unfold outputPath
  rw [hnone]
  cases a.surface with
  | none => simp [nonempty]
  | some form => cases h : input.withSuffix? form.suffix <;> simp [nonempty, h]

/-- Without a place for the document the input is its place exactly if it has the suffix. -/
theorem outputPath_eq_input_iff (hnone : a.output = none) :
    outputPath a (inputPath a) = .ok (inputPath a) ↔ a.SharesSuffix := by
  rw [outputPath_of_none hnone]
  refine exists_congr fun form => and_congr_right fun _ => ?_
  obtain ⟨ext, hsuffix, hext, hpoint⟩ := form.suffix_eq
  exact Path.withSuffix?_eq_self_iff hsuffix hext hpoint

/-! ## What is written over -/

/-- What has another name than the document is kept. -/
theorem read_deliver_of_name (hread : tree.read r = .ok c)
    (hne : r.parts.getLast? ≠ output.parts.getLast?) :
    (deliver input output document form tree).tree.read r = .ok c := by
  unfold deliver
  split
  · exact hread
  · next t hfolders =>
    have hgrown : t.read r = .ok c := (FileTree.grown_ensureFolders hfolders).read hread
    split
    · exact hgrown
    · next u hwrite => exact FileTree.read_write_of_name hwrite hgrown hne

/-- A document that is not delivered is written over nothing. -/
theorem read_deliver_of_failed (hread : tree.read r = .ok c)
    (hexit : (deliver input output document form tree).exit ≠ .ok 0) :
    (deliver input output document form tree).tree.read r = .ok c := by
  unfold deliver at hexit ⊢
  cases hfolders : tree.ensureFolders output.parent with
  | error x => exact hread
  | ok t =>
    simp only [hfolders] at hexit ⊢
    cases hwrite : t.write output (.ofDocument document) with
    | error x => exact (FileTree.grown_ensureFolders hfolders).read hread
    | ok u =>
      rw [hwrite] at hexit
      exact absurd rfl hexit

/-! ## What is left of the input -/

theorem tree_run_of_stop {stop : Stop} (h : Arguments.parse words = .error stop) :
    (run library words tree).tree = tree := by
  unfold run
  rw [h]
  cases stop <;> rfl

/-- A run that does not end well keeps all files. -/
theorem read_run_of_failed (hwords : Arguments.parse words = .ok a) (hread : tree.read r = .ok c)
    (hexit : (run library words tree).exit ≠ .ok 0) : (run library words tree).tree.read r = .ok c := by
  cases haim : aim library a tree with
  | error fault =>
    rw [(run_of_error hwords haim).unchanged]
    exact hread
  | ok aimed =>
    obtain ⟨form, hrunExit, hrunTree, -⟩ := run_of_ok hwords haim
    rw [hrunExit] at hexit
    rw [hrunTree]
    exact read_deliver_of_failed hread hexit

/-- Nor does a run touch a file with another name than its document. -/
theorem read_run_of_name (hwords : Arguments.parse words = .ok a)
    (haim : aim library a tree = .ok (output, document)) (hread : tree.read r = .ok c)
    (hne : r.parts.getLast? ≠ output.parts.getLast?) : (run library words tree).tree.read r = .ok c := by
  obtain ⟨form, -, hrunTree, -⟩ := run_of_ok hwords haim
  rw [hrunTree]
  exact read_deliver_of_name hread hne

/-- An input with another suffix than the surface is kept, however the run ends. -/
theorem read_run_of_suffix (hwords : Arguments.parse words = .ok a) (hnone : a.output = none)
    (hread : tree.read (inputPath a) = .ok c) (hsuffix : ¬ a.SharesSuffix) :
    (run library words tree).tree.read (inputPath a) = .ok c := by
  by_cases hexit : (run library words tree).exit = .ok 0
  · obtain ⟨output, document, haim⟩ := aim_of_exit_zero hwords hexit
    obtain ⟨s, form, reader, houtput, -⟩ := aim_eq_ok.1 haim
    refine read_run_of_name hwords haim hread fun hname => hsuffix ?_
    -- one name for both would make the input the place of the document
    obtain ⟨form', -, hplace⟩ := (outputPath_of_none hnone).1 houtput
    rw [Path.eq_of_withSuffix? hplace hname] at houtput
    exact (outputPath_eq_input_iff hnone).1 houtput
  · exact read_run_of_failed hwords hread hexit

/-- An input with the suffix of the surface holds the document if the run ends well. -/
theorem read_run_of_sharesSuffix (hwords : Arguments.parse words = .ok a) (hnone : a.output = none)
    (hsuffix : a.SharesSuffix) (hexit : (run library words tree).exit = .ok 0) :
    ∃ document, aim library a tree = .ok (inputPath a, document) ∧
      (run library words tree).tree.read (inputPath a) = .ok (.ofDocument document) := by
  obtain ⟨output, document, haim⟩ := aim_of_exit_zero hwords hexit
  obtain ⟨s, form, reader, houtput, -⟩ := aim_eq_ok.1 haim
  rw [(outputPath_eq_input_iff hnone).2 hsuffix] at houtput
  cases houtput
  obtain ⟨form', hrunExit, hrunTree, -⟩ := run_of_ok hwords haim
  rw [hrunExit] at hexit
  rw [hrunTree]
  exact ⟨document, haim, read_deliver hexit⟩

/-- What becomes of the input if no word asks for another place for the document. With words that are
not carried out nothing becomes of any file. Otherwise an input that can be read is kept, to the byte,
unless its name ends in the suffix of the surface and the run ends well: then it holds the document in
place of what it held. -/
theorem run_without_output (library : Codec.Library) (hwords : Arguments.asksForOutput words = false) (tree : FileTree) :
    (∀ stop, Arguments.parse words = .error stop → (run library words tree).tree = tree) ∧
    ∀ a c, Arguments.parse words = .ok a → tree.read (inputPath a) = .ok c →
      (¬ (a.SharesSuffix ∧ (run library words tree).exit = .ok 0) →
        (run library words tree).tree.read (inputPath a) = .ok c) ∧
      (a.SharesSuffix → (run library words tree).exit = .ok 0 →
        ∃ document, aim library a tree = .ok (inputPath a, document) ∧
          (run library words tree).tree.read (inputPath a) = .ok (.ofDocument document)) := by
  refine ⟨fun stop hstop => tree_run_of_stop hstop, fun a c hparse hread => ⟨fun hkept => ?_, ?_⟩⟩
  · have hnone := Arguments.output_parse hwords hparse
    rcases not_and_or.1 hkept with hsuffix | hexit
    · exact read_run_of_suffix hparse hnone hread hsuffix
    · exact read_run_of_failed hparse hread hexit
  · exact read_run_of_sharesSuffix hparse (Arguments.output_parse hwords hparse)

/-- An input that is kept, and has a trace beside it. -/
theorem run_without_output_beside :
    let words := ["label.zpl", "--backend", "trace"]
    let label : Contents := .bytes [0x5e, 0x58, 0x41, 0x5e, 0x58, 0x5a]
    let tree : FileTree := { files := [(["label.zpl"], label)] }
    (run .standard words tree).exit.toOption = some 0 ∧
      (run .standard words tree).tree.read (.ofString "label.zpl") = .ok label := by
  intro words label tree
  have hparse : (Arguments.parse words).toOption.map (fun a => (a.input, a.surface)) =
      some (some "label.zpl", some .trace) := by decide +kernel
  refine ⟨by decide +kernel, ?_⟩
  -- the arguments are too large to be compared, so only what is asked of them is looked at
  cases hwords : Arguments.parse words with
  | error stop =>
    rw [hwords] at hparse
    cases hparse
  | ok a =>
    rw [hwords] at hparse
    obtain ⟨hinput, hsurface⟩ := Prod.ext_iff.1 (Option.some.inj hparse)
    have hpath : inputPath a = .ofString "label.zpl" := by
      unfold inputPath
      rw [show a.input = some "label.zpl" from hinput]
      rfl
    have hread : tree.read (inputPath a) = .ok label := by
      rw [hpath]
      rfl
    have hsuffix : ¬ a.SharesSuffix := by
      rintro ⟨form, hform, hname⟩
      rw [show a.surface = some .trace from hsurface] at hform
      cases hform
      rw [hpath] at hname
      obtain ⟨ext, hext, hne, hpoint⟩ := Surface.Form.trace.suffix_eq
      exact absurd ((Path.withSuffix?_eq_self_iff hext hne hpoint).2 hname) (by decide +kernel)
    rw [← hpath]
    exact ((run_without_output .standard (by decide +kernel) tree).2 a label hwords hread).1
      fun hboth => hsuffix hboth.1

/-- A label in a text file is lost to the trace that is made of it, which is told as a success. -/
theorem input_overwritten :
    let words := ["label.txt", "--backend", "trace"]
    let label : Contents := .bytes [0x5e, 0x58, 0x41, 0x5e, 0x58, 0x5a]
    let tree : FileTree := { files := [(["label.txt"], label)] }
    Arguments.asksForOutput words = false ∧
      (Arguments.parse words).toOption.bind (·.input) = some "label.txt" ∧
      (tree.read (.ofString "label.txt")).toOption.map Contents.known = some label.known ∧
      (run .standard words tree).exit.toOption = some 0 ∧
      ((run .standard words tree).tree.read (.ofString "label.txt")).toOption.map Contents.known ≠
        some label.known := by
  decide +kernel

end CommandLine

end LabelPress
