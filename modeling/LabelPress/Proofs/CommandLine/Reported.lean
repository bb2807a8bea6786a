import LabelPress.CommandLine.Run
import LabelPress.Proofs.Conversion.Ended

/-!
# What the user is told

A run tells the user of its fault in one line. The line says that the settings are invalid only if the
fault is the violation of a schema: the lines about faults of printing begin with other letters
(`CommandLine.starts_report?`). And the only schema that a run can violate is the one of the settings, as
neither files nor commands nor surfaces have to do with one.
-/

namespace LabelPress

/-! ## How texts begin -/

/-- The text begins with a character. -/
def Starts (c : Char) (s : String) : Prop :=
  s.toList.head? = some c

theorem Starts.ofList (c : Char) (cs : List Char) : Starts c (String.ofList (c :: cs)) := by
  unfold Starts
  rw [String.toList_ofList]
  rfl

/-- What follows a text does not change how it starts. -/
theorem Starts.append {c : Char} {s : String} (h : Starts c s) (t : String) :
    Starts c (s ++ t) := by
  unfold Starts at h ⊢
  rw [String.toList_append, List.head?_append, h]
  rfl

theorem Starts.unique {c d : Char} {s : String} (h : Starts c s) (hd : Starts d s) : c = d :=
  Option.some.inj (h.symm.trans hd)

/-- A fault of the stream is told as one of an unsupported operation. -/
theorem StreamFault.starts_message (f : StreamFault) : Starts 'U' f.message := by
  cases f with
  | unmeasurable => exact .append (.ofList _ _) _
  | unlocatable => exact .ofList _ _
  | unreadable => exact .append (.ofList _ _) _
  | cutShort => exact .append (.append (.append (.ofList _ _) _) _) _
  | immovable => exact .append (.ofList _ _) _
  | notRewindable => exact .ofList _ _
  | unopened => exact .append (.append (.append (.ofList _ _) _) _) _

/-- What the reader itself says of input, whatever a codec may say when it fails. -/
theorem InputFault.starts_message {f : InputFault} (hfar : f ≠ .tooFar)
    (hcodec : ∀ message, f ≠ .codec message) : Starts 'U' f.message := by
  cases f with
  | stream fault => exact fault.starts_message
  | tooFar => exact absurd rfl hfar
  | codec message => exact absurd rfl (hcodec message)
  | stray => exact .append (.ofList _ _) _
  | undecodable => exact .append (.append (.append (.append (.append (.ofList _ _) _) _) _) _) _

/-- A fault of the envelope names the label or one of the two marks. -/
theorem EnvelopeFault.starts_message (f : EnvelopeFault) :
    Starts 'L' f.message ∨ Starts '^' f.message := by
  cases f with
  | notBegun => exact .inl (.append (.append (.ofList _ _) _) _)
  | notEnded => exact .inl (.append (.append (.ofList _ _) _) _)
  | nested => exact .inr (.ofList _ _)
  | endedEarly => exact .inr (.ofList _ _)

/-- No verb's code starts like the line the tool writes about its settings. -/
theorem Verb.starts_code (v : Verb) : ∃ c, c ≠ 'I' ∧ Starts c v.code := by
  cases v with
  | font | namedFont => exact ⟨'A', by decide, .ofList _ _⟩
  | barcode | barcodeDefaults => exact ⟨'B', by decide, .ofList _ _⟩
  | fieldData | fieldOrigin | fieldEnd => exact ⟨'F', by decide, .ofList _ _⟩
  | box => exact ⟨'G', by decide, .ofList _ _⟩
  | home => exact ⟨'L', by decide, .ofList _ _⟩

/-- A fault of an argument names the verb first, so it does not start like that line either. -/
theorem ArgumentFault.starts_message {f : ArgumentFault} (h : f.NamesVerb) :
    ∃ c, c ≠ 'I' ∧ Starts c f.message := by
  obtain ⟨v, hv⟩ := h
  obtain ⟨c, hc, hcode⟩ := v.starts_code
  rw [← hv] at hcode
  exact ⟨c, hc, .append (.append (.append (.append (.append (.append (.append hcode _) _) _) _) _) _) _⟩

namespace CommandLine

/-! ## The line about invalid settings -/

variable {x : Fault} {text : String}

/-- The lines about faults of printing begin with other letters. -/
theorem starts_report? (hx : x.OfPrinting) (h : report? x = some text) :
    ∃ c, c ≠ 'I' ∧ Starts c text := by
  unfold report? at h
  -- one case for each kind of fault; those without a report and those of files are out of question
  split at h
  · cases h
  · cases h
  · cases h
  · next f hfar hcodec =>
    cases h
    have hstarts : Starts 'U' f.message :=
      f.starts_message (by rintro rfl; exact hfar rfl) (by rintro m rfl; exact hcodec m rfl)
    exact ⟨'U', by decide, hstarts⟩
  · cases h
    exact ⟨'U', by decide, .append (.append (.append (.ofList _ _) _) _) _⟩
  · next f =>
    cases h
    rcases f.starts_message with hstarts | hstarts
    · exact ⟨'L', by decide, hstarts⟩
    · exact ⟨'^', by decide, hstarts⟩
  · next e =>
    cases h
    exact ArgumentFault.starts_message hx
  · cases hx
  · cases h

/-- So none of them is told as invalid settings. -/
theorem report?_ofPrinting (hx : x.OfPrinting) : report? x ≠ some s!"Invalid settings: {text}" := by
  intro h
  obtain ⟨c, hc, hstarts⟩ := starts_report? hx h
  exact hc (hstarts.unique (.append (.ofList _ _) _))

end CommandLine

/-! ## Files and settings -/

/-- A fault of printing, or a violation. -/
def Fault.OfRun (x : Fault) : Prop :=
  x.OfPrinting ∨ ∃ v, x = .violation v

theorem Fault.OfPrinting.ofRun {x : Fault} (h : x.OfPrinting) : x.OfRun := .inl h

namespace FileTree

variable (t : FileTree) (p : Path)

/-- A path leads to an entry or is refused as the file system refuses it. -/
theorem ofPrinting_locate : FailsOnly Fault.OfPrinting (t.locate p) := by
  unfold locate
  split
  · exact .error trivial
  · split
    · exact .error trivial
    · split
      · exact .ok _
      · exact .error trivial

/-- A file is read or refused in the same way. -/
theorem ofPrinting_read : FailsOnly Fault.OfPrinting (t.read p) := by
  refine .bind (t.ofPrinting_locate p) fun place => ?_
  split
  · exact .error trivial
  · split
    · exact .ok _
    · exact .error trivial

/-- A file is read as a value, or it is no text or no value. -/
theorem ofPrinting_readJson : FailsOnly Fault.OfPrinting (t.readJson p) := by
  have htext : FailsOnly Fault.OfPrinting (t.readText p) := by
    refine .bind (t.ofPrinting_read p) fun c => ?_
    split
    · exact .ok _
    · exact .error trivial
  refine .bind htext fun s => ?_
  split
  · exact .ok _
  · exact .error trivial

end FileTree

namespace Settings

variable (library : Codec.Library)

theorem ofRun_ofFinding (f : Finding) : (Fault.ofFinding f).OfRun := by
  cases f with
  | violation v => exact .inr ⟨v, rfl⟩
  | fault f => exact .inl trivial

/-- Members are settings, or are refused for what is found wrong in them. -/
theorem ofRun_ofMembers (members : List (Text × Json)) :
    FailsOnly Fault.OfRun (ofMembers library members) := by
  unfold ofMembers
  split
  · exact .error (ofRun_ofFinding _)
  · simp only
    split
    · exact .error (.inl trivial)
    · exact .ok _

/-- An entry of a list is a pair, or it is refused as no pair. -/
theorem ofPrinting_pairOf (x : Json) : FailsOnly Fault.OfPrinting (pairOf x) := by
  unfold pairOf
  extract_lets two
  have htwo (xs : List Json) : FailsOnly Fault.OfPrinting (two xs) := by
    unfold two
    split
    · exact .ok _
    · exact .error trivial
  -- a text and an object are taken apart like a list, whatever that gives
  cases x with
  | array xs =>
    refine FailsOnly.bind (htwo xs) ?_
    rintro ⟨name, value⟩
    cases name with
    | array | object => exact .error trivial
    | _ => exact .ok _
  | string t => exact htwo _
  | object ms => exact htwo _
  | _ => exact .error trivial

/-- A list that is no list of pairs is refused for its first entry that is none. -/
theorem ofRun_pairsFault (xs : List Json) : (pairsFault xs).OfRun := by
  have hpairs : FailsOnly Fault.OfPrinting (pairsOf xs) :=
    .foldlM (fun pairs x => .bind (ofPrinting_pairOf x) fun _ => .ok _) xs []
  unfold pairsFault
  split
  · next fault h => exact .inl (hpairs fault h)
  · simp only
    split
    · split
      · exact ofRun_ofFinding _
      · exact .inl trivial
    · exact .inr ⟨_, rfl⟩

/-- A value is settings, or is refused as its members are. -/
theorem ofRun_ofJson (x : Json) : FailsOnly Fault.OfRun (ofJson library x) := by
  cases x with
  | object members => exact ofRun_ofMembers library members
  | array xs => exact .error (ofRun_pairsFault xs)
  | _ => exact .error (.inl trivial)

/-- Settings with overrides are checked as settings are. -/
theorem ofRun_merged (s : Settings) (overrides : List (Text × Json)) :
    FailsOnly Fault.OfRun (s.merged library overrides) := by
  unfold merged
  split
  · exact .error (.inl trivial)
  · exact ofRun_ofMembers library _

end Settings

namespace CommandLine

/-- The settings of a run fail like printing does, or violate their schema. -/
theorem ofRun_settings (library : Codec.Library) (a : Arguments) (tree : FileTree) :
    FailsOnly Fault.OfRun (settings library a tree) := by
  unfold settings
  split
  · refine .bind ((tree.ofPrinting_readJson _).mono fun _ h => h.ofRun) fun x => ?_
    exact .bind (Settings.ofRun_ofJson library x) fun s => Settings.ofRun_merged library s _
  · exact .bind (.ok _) fun s => Settings.ofRun_merged library s _

/-- A path for the output is named or derived, and derived only from a path that has a last name. -/
theorem ofPrinting_outputPath (a : Arguments) (input : Path) :
    FailsOnly Fault.OfPrinting (outputPath a input) := by
  unfold outputPath
  split
  · exact .ok _
  · exact .error trivial
  · split
    · exact .ok _
    · exact .error trivial

/-- A name of a surface is known, or it is refused. -/
theorem ofPrinting_form (a : Arguments) : FailsOnly Fault.OfPrinting (form a) := by
  unfold form
  split
  · exact .ok _
  · exact .error trivial

/-- The input is opened as a stream the reader can use, or one of the three parts of that is
refused. -/
theorem ofPrinting_openInput (library : Codec.Library) (tree : FileTree) (input : Path)
    (encoding : String) : FailsOnly Fault.OfPrinting (openInput library tree input encoding) := by
  have hencoding : FailsOnly Fault.OfPrinting (Reader.encodingOf library encoding) := by
    unfold Reader.encodingOf
    split
    · exact .ok _
    · exact .error trivial
  refine .bind hencoding fun _ => ?_
  split
  · exact .error trivial
  · next hread => exact .error (tree.ofPrinting_read input _ hread)
  · split
    · exact .ok _
    · next fault _ hsource =>
      unfold Reader.ofSource at hsource
      split at hsource
      · next hname =>
        cases hsource
        exact .error (hencoding _ hname)
      · split at hsource
        · cases hsource
        · cases hsource
          exact .error trivial

end CommandLine

end LabelPress
