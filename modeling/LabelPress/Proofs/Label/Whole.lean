import LabelPress.Proofs.Label.Field
import LabelPress.Proofs.Surface.Traced

/-!
# Labels with whole texts

The calls of a label show texts that its commands gave, at once or at the end of the field. So if
the arguments of all commands are whole, the texts of all calls are: `Label.keepsWhole_steps`.
-/

namespace LabelPress.Label

open Argument (get?)

/-- What waits for the end of the field is whole. -/
structure IsWhole (l : Label) : Prop where
  content : l.content.IsWhole
  barcodeArgs : ∀ t ∈ l.barcodeArgs, t.IsWhole

/-- A step that leaves a label whole and shows whole texts. -/
abbrev KeepsWhole (s : Step) : Prop :=
  s.Keeps IsWhole Call.IsWhole fun _ => True

variable {args : List Text} {l m : Label}

theorem isWhole_first (resolution : Option Number) : (first resolution).IsWhole where
  content := Text.isWhole_ofString ""
  barcodeArgs := by simp [first]

/-- Whether a label is whole depends on what it remembers for a barcode and for a text. -/
theorem IsWhole.of_memory (hl : l.IsWhole) (h : m.memory = l.memory) : m.IsWhole where
  content := by
    rw [show m.content = l.content from congrArg Memory.content h]
    exact hl.content
  barcodeArgs := by
    rw [show m.barcodeArgs = l.barcodeArgs from congrArg Memory.barcodeArgs h]
    exact hl.barcodeArgs

/-- A call that shows no text is whole. -/
theorem isWhole_of_silent {c : Call} (h : Field.IsSilent c) : c.IsWhole := by
  cases c with
  | drawText => exact absurd rfl h.1
  | drawBarcode => exact absurd rfl h.2
  | createDocument | moveCursor | setFontSize | drawRect => trivial

theorem keepsWhole_of_forgets {s : Step} (hl : l.IsWhole) (h : Field.Forgets l s) : KeepsWhole s :=
  h.mono (fun _ => hl.of_memory) (fun _ => isWhole_of_silent) (fun _ => id)

/-- A letter is taken from a whole argument, or is the usual one, in capitals. -/
theorem isWhole_letter (h : ∀ t ∈ args, t.IsWhole) (i : Nat) {usual : Text} (hu : usual.IsWhole) :
    (letter args i usual).IsWhole := by
  unfold letter
  cases hget : get? args i with
  | none => exact hu.upper
  | some t => exact (Argument.isWhole_get? h hget).upper

theorem keepsWhole_barcode (h : ∀ t ∈ args, t.IsWhole) (hl : l.IsWhole) :
    KeepsWhole (barcode args l) :=
  .withArgument (fun _ _ => trivial) fun _ _ => .done ⟨hl.content, h⟩

theorem keepsWhole_barcodeDefaults (args : List Text) (hl : l.IsWhole) :
    KeepsWhole (barcodeDefaults args l) :=
  .withArgument (fun _ _ => trivial) fun _ _ =>
    .withArgument (fun _ _ => trivial) fun _ _ =>
      .withArgument (fun _ _ => trivial) fun _ _ => .done ⟨hl.content, hl.barcodeArgs⟩

/-- The data of a field are its arguments with the commas between them. -/
theorem keepsWhole_fieldData (h : ∀ t ∈ args, t.IsWhole) (hl : l.IsWhole) :
    KeepsWhole (fieldData args l) := by
  have hjoin : (Command.joinArgs args).IsWhole :=
    (Text.isWhole_intercalate (Text.isWhole_ofString ",")).2 h
  unfold fieldData
  split
  · exact .done ⟨hjoin, hl.barcodeArgs⟩
  · exact .call hl hjoin

/-- The data of the field end up in a text or in a barcode, or are kept. -/
theorem keepsWhole_drawPending (hl : l.IsWhole) : KeepsWhole (drawPending l) := by
  refine .withValue (fun _ _ => trivial) fun f hf => ?_
  -- of the formatting a trace shows the symbology, which is fixed, and the orientation
  obtain ⟨_, _, _, -, -, -, rfl⟩ := formatting_eq_ok hf
  apply Step.Keeps.andThen (J := IsWhole)
  · apply Step.Keeps.andThen (.note hl)
    intro m hm
    refine .call hm ⟨hm.content, fun f hf => ?_⟩
    cases hf
    exact ⟨Text.isWhole_ofString "code128",
      isWhole_letter hl.barcodeArgs 0 (Text.isWhole_ofString "N")⟩
  · intro m _
    exact .done ⟨Text.isWhole_ofString "", by simp⟩

/-- The end of a field draws what waits, which is whole, and goes back to the usual font. -/
theorem keepsWhole_fieldEnd (hl : l.IsWhole) : KeepsWhole (fieldEnd l) := by
  unfold fieldEnd
  apply Step.Keeps.andThen (J := IsWhole)
  · apply Step.Keeps.andThen (J := IsWhole)
    · apply Step.Keeps.andThen (J := IsWhole)
      · split
        · exact keepsWhole_drawPending hl
        · exact .done hl
      · intro m hm
        exact .call (hm.of_memory rfl) trivial
    · intro m hm
      exact keepsWhole_of_forgets hm (Field.forgets_goTo rfl)
  · intro m hm
    exact .done ⟨hm.content, hm.barcodeArgs⟩

/-- Whatever a command is, it keeps labels whole if its arguments are. -/
theorem keepsWhole_step (name : Text) (h : ∀ t ∈ args, t.IsWhole) (hl : l.IsWhole) :
    KeepsWhole (l.step name args) := by
  unfold step
  split
  · next v _ =>
    cases v with
    | font => exact keepsWhole_of_forgets hl (Field.forgets_font args l)
    | namedFont => exact .note hl
    | barcode => exact keepsWhole_barcode h hl
    | barcodeDefaults => exact keepsWhole_barcodeDefaults args hl
    | fieldData => exact keepsWhole_fieldData h hl
    | fieldOrigin => exact keepsWhole_of_forgets hl (Field.forgets_fieldOrigin args l)
    | fieldEnd => exact keepsWhole_fieldEnd hl
    | box => exact keepsWhole_of_forgets hl (Field.forgets_box args l)
    | home => exact keepsWhole_of_forgets hl (Field.forgets_home args l)
  · exact .note hl

/-- Commands with whole arguments show whole texts. -/
theorem keepsWhole_steps {cs : List Command} (h : ∀ c ∈ cs, ∀ t ∈ c.args, t.IsWhole)
    (hl : l.IsWhole) : KeepsWhole (l.steps cs) :=
  keeps_steps (fun c hc _ hm => keepsWhole_step c.name (h c hc) hm) hl

end LabelPress.Label
