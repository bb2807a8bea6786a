import LabelPress.Proofs.CommandLine.Reported
import LabelPress.Proofs.Files.Written

/-!
# What a run leaves behind

A run aims at one document and one place for it (`CommandLine.aim`). If it misses, the file tree is as
it was, and the run ends as one that failed (`CommandLine.run_of_error`). If it does not miss, the
document is all that is left to write (`CommandLine.run_of_ok`). The last look at a recording never
stops a run, as every recording that a conversion has filled is valid.
-/

namespace LabelPress

namespace CommandLine

/-- The path of the input. -/
def inputPath (a : Arguments) : Path :=
  .ofString (a.input.getD "")

/-- What a run aims at: the place of the document, and the document. -/
def aim (library : Codec.Library) (a : Arguments) (tree : FileTree) : Except Fault (Path × Document) := do
  let output ← outputPath a (inputPath a)
  let (s, form, reader) ← prepare library a (inputPath a) tree
  let document ←
    (Conversion.withSettings reader s (form.fresh (inputPath a).name)).result
  return (output, document)

/-- The notes of a run: those of the conversion, if it comes to one. -/
def notes (library : Codec.Library) (a : Arguments) (tree : FileTree) : List Note :=
  match outputPath a (inputPath a), prepare library a (inputPath a) tree with
  | .ok _, .ok (s, form, reader) =>
    (Conversion.withSettings reader s (form.fresh (inputPath a).name)).notes
  | _, _ => []

variable {library : Codec.Library} {words : List String} {a : Arguments} {tree : FileTree} {output : Path}
  {document : Document} {fault : Fault}

/-- The last look at a recording finds nothing. -/
theorem checked_withSettings (reader : Reader) (s : Settings) (form : Surface.Form)
    (source : String) :
    checked (Conversion.withSettings reader s (form.fresh source)) =
      (Conversion.withSettings reader s (form.fresh source)).result := by
  have hafter := Conversion.after_withSettings reader s (form.fresh source)
  unfold checked
  cases hresult : (Conversion.withSettings reader s (form.fresh source)).result with
  | error x => rfl
  | ok document =>
    cases hsurface : (Conversion.withSettings reader s (form.fresh source)).surface with
    -- only a recording is checked again, and what a conversion leaves of a fresh one passes
    | recording r =>
      have hvalid := Surface.validate_of_fresh hafter hsurface
      simp only [bind, Except.bind, hvalid]
      rfl
    | trace t => rfl
    | page p => rfl

/-! ## Missing the aim -/

/-- The run has failed: the tree is as it was, and the fault is told behind the notes, or not told. -/
structure Missed (library : Codec.Library) (a : Arguments) (fault : Fault) (tree : FileTree) (r : Run) : Prop where
  unchanged : r.tree = tree
  exit : r.exit = (failed fault tree).exit
  stderr : r.stderr = noteText a.verbose (notes library a tree) ++ (failed fault tree).stderr

theorem tree_failed (fault : Fault) (tree : FileTree) : (failed fault tree).tree = tree := by
  unfold failed
  split <;> rfl

theorem exit_failed (fault : Fault) (tree : FileTree) :
    (failed fault tree).exit = .ok 1 ∨ (failed fault tree).exit = .error fault := by
  unfold failed
  split
  · exact .inl rfl
  · exact .inr rfl

/-- A run that fails without notes leaves the files and says why. -/
theorem missed_failed (hnone : notes library a tree = []) : Missed library a fault tree (failed fault tree) := by
  refine ⟨tree_failed fault tree, rfl, ?_⟩
  have hempty : noteText a.verbose [] = "" := by
    unfold noteText
    split <;> rfl
  rw [hnone, hempty, String.empty_append]

/-- An input without a name ends the run, and is not told about. -/
theorem failed_outputPath {input : Path} (h : outputPath a input = .error fault)
    (tree : FileTree) : failed fault tree = { exit := .error fault, tree } := by
  unfold outputPath at h
  split at h
  · cases h
  · cases h
    rfl
  · split at h
    · cases h
    · cases h
      rfl

/-- What a run does with proper words. -/
theorem run_of_parse (hwords : Arguments.parse words = .ok a) (tree : FileTree) :
    run library words tree =
      match outputPath a (inputPath a) with
      | .error fault => { exit := .error fault, tree }
      | .ok output => convert library a (inputPath a) output tree := by
  unfold run
  rw [hwords]
  rfl

/-- A run whose aim is missed leaves the files as they were. -/
theorem run_of_error (hwords : Arguments.parse words = .ok a) (h : aim library a tree = .error fault) :
    Missed library a fault tree (run library words tree) := by
  rw [run_of_parse hwords]
  unfold aim at h
  -- the cases are in which of the three parts of the aim fails
  cases houtput : outputPath a (inputPath a) with
  | error x =>
    have hnone : notes library a tree = [] := by
      unfold notes
      rw [houtput]
    rw [houtput] at h
    cases h
    have hmissed : Missed library a fault tree (failed fault tree) := missed_failed hnone
    rwa [failed_outputPath houtput] at hmissed
  | ok output =>
    rw [houtput] at h
    unfold convert
    cases hprepare : prepare library a (inputPath a) tree with
    | error x =>
      have hnone : notes library a tree = [] := by
        unfold notes
        rw [houtput, hprepare]
      rw [hprepare] at h
      cases h
      exact missed_failed hnone
    | ok p =>
      obtain ⟨s, form, reader⟩ := p
      rw [hprepare] at h
      simp only [checked_withSettings]
      cases hresult : (Conversion.withSettings reader s (form.fresh (inputPath a).name)).result with
      | error x =>
        simp only [bind, Except.bind, hresult] at h
        cases h
        refine ⟨tree_failed fault tree, rfl, ?_⟩
        unfold notes
        rw [houtput, hprepare]
      | ok document =>
        simp only [bind, Except.bind, hresult] at h
        cases h

/-! ## Not missing the aim -/

/-- What is prepared are the settings, the surface and the reader, each of which may be missed. -/
theorem prepare_eq_ok {input : Path} {s : Settings} {form : Surface.Form} {reader : Reader} :
    prepare library a input tree = .ok (s, form, reader) ↔
      settings library a tree = .ok s ∧ a.surface = some form ∧
        openInput library tree input s.encoding = .ok reader := by
  have hform : CommandLine.form a = .ok form ↔ a.surface = some form := by
    unfold CommandLine.form
    cases a.surface with
    | none => simp
    | some f => simp
  rw [← hform]
  constructor
  · intro h
    obtain ⟨s', hsettings, h⟩ := Except.bind_eq_ok.1 h
    obtain ⟨form', hsurface, h⟩ := Except.bind_eq_ok.1 h
    obtain ⟨reader', hopen, h⟩ := Except.bind_eq_ok.1 h
    cases h
    exact ⟨hsettings, hsurface, hopen⟩
  · rintro ⟨hsettings, hsurface, hopen⟩
    exact Except.bind_eq_ok.2 ⟨s, hsettings, Except.bind_eq_ok.2 ⟨form, hsurface,
      Except.bind_eq_ok.2 ⟨reader, hopen, rfl⟩⟩⟩

/-- What a run aims at is what comes of the input with the settings, on a new surface. -/
theorem aim_eq_ok :
    aim library a tree = .ok (output, document) ↔
      ∃ s form reader, outputPath a (inputPath a) = .ok output ∧ settings library a tree = .ok s ∧
        a.surface = some form ∧ openInput library tree (inputPath a) s.encoding = .ok reader ∧
        (Conversion.withSettings reader s (form.fresh (inputPath a).name)).result =
          .ok document := by
  constructor
  · intro h
    obtain ⟨path, houtput, h⟩ := Except.bind_eq_ok.1 h
    obtain ⟨⟨s, form, reader⟩, hprepare, h⟩ := Except.bind_eq_ok.1 h
    obtain ⟨d, hresult, h⟩ := Except.bind_eq_ok.1 h
    cases h
    obtain ⟨hsettings, hsurface, hopen⟩ := prepare_eq_ok.1 hprepare
    exact ⟨s, form, reader, houtput, hsettings, hsurface, hopen, hresult⟩
  · rintro ⟨s, form, reader, houtput, hsettings, hsurface, hopen, hresult⟩
    have hprepare := prepare_eq_ok.2 ⟨hsettings, hsurface, hopen⟩
    exact Except.bind_eq_ok.2 ⟨output, houtput, Except.bind_eq_ok.2 ⟨_, hprepare,
      Except.bind_eq_ok.2 ⟨document, hresult, rfl⟩⟩⟩

/-- A document that is delivered is what the file at its place holds. -/
theorem read_deliver {input : Path} {form : Surface.Form}
    (h : (deliver input output document form tree).exit = .ok 0) :
    (deliver input output document form tree).tree.read output = .ok (.ofDocument document) := by
  unfold deliver at h ⊢
  cases hfolders : tree.ensureFolders output.parent with
  | error x =>
    rw [hfolders] at h
    cases h
  | ok t =>
    simp only [hfolders] at h ⊢
    cases hwrite : t.write output (.ofDocument document) with
    | error x =>
      rw [hwrite] at h
      cases h
    | ok u => exact FileTree.read_write hwrite

/-- To deliver succeeds, or fails as the file system refuses it. -/
theorem exit_deliver (input output : Path) (document : Document) (form : Surface.Form)
    (tree : FileTree) :
    (deliver input output document form tree).exit = .ok 0 ∨
      ∃ fault, (deliver input output document form tree).exit = .error fault := by
  unfold deliver
  split
  · exact .inr ⟨_, rfl⟩
  · split
    · exact .inr ⟨_, rfl⟩
    · exact .inl rfl

theorem stderr_deliver (input output : Path) (document : Document) (form : Surface.Form)
    (tree : FileTree) : (deliver input output document form tree).stderr = "" := by
  unfold deliver
  split
  · rfl
  · split <;> rfl

/-- A run that has its document delivers it. -/
theorem run_of_ok (hwords : Arguments.parse words = .ok a)
    (h : aim library a tree = .ok (output, document)) :
    ∃ form, (run library words tree).exit = (deliver (inputPath a) output document form tree).exit ∧
      (run library words tree).tree = (deliver (inputPath a) output document form tree).tree ∧
      (run library words tree).stderr = noteText a.verbose (notes library a tree) := by
  obtain ⟨s, form, reader, houtput, hsettings, hsurface, hopen, hresult⟩ := aim_eq_ok.1 h
  have hprepare := prepare_eq_ok.2 ⟨hsettings, hsurface, hopen⟩
  refine ⟨form, ?_⟩
  unfold notes
  rw [run_of_parse hwords, houtput, hprepare]
  simp only [convert, hprepare, checked_withSettings, hresult]
  refine ⟨trivial, trivial, ?_⟩
  rw [stderr_deliver, String.append_empty]

/-! ## Exact or absent -/

/-- The fault is no violation, or one for which the settings are rejected. -/
def IsJustified (library : Codec.Library) (a : Arguments) (tree : FileTree) (x : Fault) : Prop :=
  x.OfPrinting ∨ ∃ v, x = .violation v ∧ settings library a tree = .error (.violation v)

/-- Whatever a run aims at, nothing but the settings violates a schema. -/
theorem isJustified_aim (library : Codec.Library) (a : Arguments) (tree : FileTree) :
    FailsOnly (IsJustified library a tree) (aim library a tree) := by
  have hsettings : FailsOnly (IsJustified library a tree) (settings library a tree) := by
    intro x hx
    rcases ofRun_settings library a tree x hx with hprinting | ⟨v, rfl⟩
    · exact .inl hprinting
    · exact .inr ⟨v, rfl, hx⟩
  have hprepare : FailsOnly (IsJustified library a tree) (prepare library a (inputPath a) tree) := by
    refine .bind hsettings fun s => ?_
    refine .bind ((ofPrinting_form a).mono fun _ => .inl) fun f => ?_
    exact .bind ((ofPrinting_openInput library tree _ _).mono fun _ => .inl) fun r => .ok _
  -- the order of the steps does not matter here, for each of them fails with a printing fault
  refine .bind ((ofPrinting_outputPath a _).mono fun _ => .inl) fun output => ?_
  refine .bind hprepare ?_
  rintro ⟨s, form, reader⟩
  exact .bind ((Conversion.ofPrinting_withSettings reader s _).mono fun _ => .inl) fun _ => .ok _

/-- What a run does to the files. -/
structure IsExact (library : Codec.Library) (words : List String) (a : Arguments) (tree : FileTree) : Prop where
  /-- If it ends well, the output path holds what the conversion of the input with the settings yields
  on a new surface, which is known to the byte if it is a text. -/
  delivered : (run library words tree).exit = .ok 0 → ∃ s form reader output document,
    settings library a tree = .ok s ∧ a.surface = some form ∧
    openInput library tree (inputPath a) s.encoding = .ok reader ∧
    outputPath a (inputPath a) = .ok output ∧
    (Conversion.withSettings reader s (form.fresh (inputPath a).name)).result = .ok document ∧
    (run library words tree).tree.read output = .ok (.ofDocument document) ∧
    (form ≠ .pdf → ∃ text, document = .text text)
  /-- If it ends with a fault that the user is told, no file and no folder has been touched. -/
  unchanged : (run library words tree).exit = .ok 1 → (run library words tree).tree = tree
  /-- So it is if the settings, the reading or the conversion fail, told or not. -/
  missed : ∀ fault, aim library a tree = .error fault → Missed library a fault tree (run library words tree)
  /-- The settings are told to be invalid only if they are rejected. -/
  invalid : ∀ text, (run library words tree).stderr =
      noteText a.verbose (notes library a tree) ++ ("[!] Invalid settings: " ++ text ++ "\n") →
    ∃ v, text = v.message ∧ settings library a tree = .error (.violation v)

theorem invalid_ne_empty (text : String) : "" ≠ "[!] Invalid settings: " ++ text ++ "\n" := by
  intro h
  have hstarts : Starts '[' "" := h ▸ .append (.append (.ofList _ _) _) _
  simp [Starts] at hstarts

theorem told_of_stderr {text : String}
    (h : (failed fault tree).stderr = "[!] Invalid settings: " ++ text ++ "\n") :
    report? fault = some s!"Invalid settings: {text}" := by
  unfold failed at h
  split at h
  · next told htold =>
    have hsplit : "[!] Invalid settings: " = "[!] " ++ "Invalid settings: " := by decide
    have htext : "[!] " ++ told = "[!] " ++ ("Invalid settings: " ++ text) := by
      rw [← String.append_assoc, ← hsplit]
      exact (String.append_left_inj _).1 h
    rw [htold]
    exact congrArg some ((String.append_right_inj _).1 htext)
  · -- what is not told leaves no line at all
    exact absurd h (invalid_ne_empty text)

/-- A run that ends well has not missed. -/
theorem aim_of_exit_zero (hwords : Arguments.parse words = .ok a)
    (hexit : (run library words tree).exit = .ok 0) :
    ∃ output document, aim library a tree = .ok (output, document) := by
  cases haim : aim library a tree with
  | ok aimed => exact ⟨aimed.1, aimed.2, rfl⟩
  | error fault =>
    rw [(run_of_error hwords haim).exit] at hexit
    rcases exit_failed fault tree with h | h
    · rw [h] at hexit
      cases hexit
    · rw [h] at hexit
      cases hexit

/-- A run that ends with the code for faults has missed. -/
theorem aim_of_exit_one (hwords : Arguments.parse words = .ok a)
    (hexit : (run library words tree).exit = .ok 1) : ∃ fault, aim library a tree = .error fault := by
  cases haim : aim library a tree with
  | error fault => exact ⟨fault, rfl⟩
  | ok aimed =>
    obtain ⟨output, document⟩ := aimed
    obtain ⟨form, hrun, -⟩ := run_of_ok hwords haim
    rw [hrun] at hexit
    rcases exit_deliver (inputPath a) output document form tree with h | ⟨x, h⟩
    · rw [h] at hexit
      cases hexit
    · rw [h] at hexit
      cases hexit

/-- A run that tells the settings to be invalid has rejected them. -/
theorem settings_of_told (hwords : Arguments.parse words = .ok a) {text : String}
    (h : (run library words tree).stderr =
      noteText a.verbose (notes library a tree) ++ ("[!] Invalid settings: " ++ text ++ "\n")) :
    ∃ v, text = v.message ∧ settings library a tree = .error (.violation v) := by
  cases haim : aim library a tree with
  | error fault =>
    rw [(run_of_error hwords haim).stderr] at h
    have htold := told_of_stderr ((String.append_right_inj _).1 h)
    rcases isJustified_aim library a tree fault haim with hprinting | ⟨v, rfl, hsettings⟩
    · exact absurd htold (report?_ofPrinting hprinting)
    · exact ⟨v, ((String.append_right_inj _).1 (Option.some.inj htold)).symm, hsettings⟩
  | ok aimed =>
    -- there are no lines behind the notes
    obtain ⟨output, document⟩ := aimed
    obtain ⟨form, -, -, hnotes⟩ := run_of_ok hwords haim
    have hline : noteText a.verbose (notes library a tree) ++ "" =
        noteText a.verbose (notes library a tree) ++ ("[!] Invalid settings: " ++ text ++ "\n") := by
      rw [String.append_empty]
      exact hnotes.symm.trans h
    exact absurd ((String.append_right_inj _).1 hline) (invalid_ne_empty text)

/-- The file at the output path is exactly what the conversion yields, or there is none. A run with
proper words that ends well has written all of the document; one that fails on the way has touched no
file and no folder. Checking a recording at the end never fails, as a valid one stays valid whatever is
converted on it, and a new one is valid; so the settings are told to be invalid only if they are. -/
theorem run_exact (library : Codec.Library) (hwords : Arguments.parse words = .ok a) (tree : FileTree) :
    IsExact library words a tree ∧
      (∀ source, ∃ blank, Surface.Form.json.fresh source = .recording blank ∧
        blank.validate = none) ∧
      ∀ (reader : Reader) (s : Settings) (blank : Recording), blank.validate = none →
        ∃ filled, (Conversion.withSettings reader s (.recording blank)).surface = .recording filled ∧
          filled.validate = none := by
  refine ⟨⟨fun hexit => ?_, fun hexit => ?_, fun fault haim => run_of_error hwords haim,
    fun text hstderr => settings_of_told hwords hstderr⟩, Surface.validate_fresh,
    fun reader s blank hvalid => Conversion.validate_withSettings reader s hvalid⟩
  · -- an exit of zero means that the aim was met and delivered
    obtain ⟨output, document, haim⟩ := aim_of_exit_zero hwords hexit
    obtain ⟨s, form, reader, houtput, hsettings, hsurface, hopen, hresult⟩ := aim_eq_ok.1 haim
    obtain ⟨form', hrunExit, hrunTree, -⟩ := run_of_ok hwords haim
    refine ⟨s, form, reader, output, document, hsettings, hsurface, hopen, houtput, hresult, ?_,
      fun hform => Conversion.text_of_withSettings (Surface.isWritten_fresh hform _) hresult⟩
    rw [hrunTree]
    rw [hrunExit] at hexit
    exact read_deliver hexit
  · obtain ⟨fault, haim⟩ := aim_of_exit_one hwords hexit
    exact (run_of_error hwords haim).unchanged

/-- An empty label on a trace. -/
theorem run_exact_trace :
    let words := ["label.zpl", "--backend", "trace"]
    let tree : FileTree :=
      { files := [(["label.zpl"], .bytes [0x5e, 0x58, 0x41, 0x5e, 0x58, 0x5a])] }
    ∃ a, Arguments.parse words = .ok a ∧ IsExact .standard words a tree ∧
      (run .standard words tree).exit.toOption = some 0 := by
  intro words tree
  have hparse : (Arguments.parse words).isOk = true := by decide +kernel
  cases hwords : Arguments.parse words with
  | error stop =>
    rw [hwords] at hparse
    cases hparse
  | ok a => exact ⟨a, rfl, (run_exact .standard hwords tree).1, by decide +kernel⟩

end CommandLine

end LabelPress
