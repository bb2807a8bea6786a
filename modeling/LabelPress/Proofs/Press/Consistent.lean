import LabelPress.Proofs.Label.Isolated
import LabelPress.Proofs.Press.Within

/-!
# What a label is between commands

The state of a field, its font and the barcode that waits are set by different commands, and a
command may stop halfway: the end of a field can fail on the surface, and then the barcode still
waits. Three things are true all the same whenever a command has ended, whatever came of it
(`Label.Consistent`):

* a label that waits for no barcode has neither content nor arguments for one;
* a font size that is not the usual one was chosen for the current field;
* the arguments that are kept for a barcode are such as `BC` accepts.

The last one is why the height of a barcode can be read a second time without a check. What `BC`
accepts is said without it by `Label.Askable`, and `Label.checkBarcode_eq_ok_iff` ties the two
together.
-/

namespace LabelPress

namespace Label

open Argument (get? integer choice)
open Step (Everywhere)

variable {args : List Text} {l : Label}

/-! ## The arguments of a barcode -/

/-- Arguments with which a barcode can be asked for: besides what `Accepted` says, its flags are a
yes or a no. -/
structure Askable (args : List Text) : Prop extends Accepted args where
  above : ∃ a ∈ yesNo, letter args 2 "N" = .ofString a
  below : ∃ b ∈ yesNo, letter args 3 "Y" = .ofString b
  checkDigit : ∃ c ∈ yesNo, letter args 4 "N" = .ofString c

/-- Without arguments the usual letters are taken, which are among the choices. -/
theorem askable_nil : Askable [] where
  toAccepted := accepted_nil
  above := ⟨"N", by decide, by decide⟩
  below := ⟨"Y", by decide, by decide⟩
  checkDigit := ⟨"N", by decide, by decide⟩

/-- A letter that is one of the choices is accepted. -/
theorem exists_choice {default : String} {choices : List String} {i : Nat} (command field : String)
    (h : ∃ c ∈ choices, letter args i default = .ofString c) :
    ∃ chosen, choice command field (get? args i) default choices = .ok chosen := by
  unfold choice
  obtain ⟨c, hc, hletter⟩ := h
  unfold letter at hletter
  cases htext : get? args i with
  | none => exact ⟨default, rfl⟩
  | some text =>
    rw [htext] at hletter
    have hsome : (choices.find? fun (d : String) => d == text.upper).isSome = true :=
      List.find?_isSome.2 ⟨c, hc, beq_iff_eq.2 hletter.symm⟩
    obtain ⟨chosen, hchosen⟩ := Option.isSome_iff_exists.1 hsome
    refine ⟨chosen, ?_⟩
    simp only [hchosen]

/-- A height within bounds is accepted, and so is none. -/
theorem exists_height (usual : Int) (h : ∀ text, get? args 1 = some text →
      ∃ n, Decimal.integer? text = some n ∧ 1 ≤ n ∧ n ≤ maxDots) :
    ∃ n, integer "BC" "h" (get? args 1) usual 1 maxDots = .ok n := by
  unfold integer
  cases htext : get? args 1 with
  | none => exact ⟨usual, rfl⟩
  | some text =>
    obtain ⟨n, hn, hlow, hhigh⟩ := h text htext
    refine ⟨n, ?_⟩
    unfold Argument.integerWithin
    simp only [hn]
    rw [if_neg (by omega)]

/-- The check of `BC` accepts these arguments and no others, whatever has been set in the label. -/
theorem checkBarcode_eq_ok_iff : checkBarcode args l = .ok () ↔ Askable args := by
  constructor
  · intro h
    have haccepted := accepted_of_checkBarcode h
    unfold checkBarcode at h
    obtain ⟨_, -, h⟩ := Except.bind_eq_ok.1 h
    obtain ⟨_, -, h⟩ := Except.bind_eq_ok.1 h
    obtain ⟨_, habove, h⟩ := Except.bind_eq_ok.1 h
    obtain ⟨_, hbelow, h⟩ := Except.bind_eq_ok.1 h
    obtain ⟨_, hcheck, -⟩ := Except.bind_eq_ok.1 h
    exact ⟨haccepted, letter_of_choice habove (by decide) (by decide),
      letter_of_choice hbelow (by decide) (by decide),
      letter_of_choice hcheck (by decide) (by decide)⟩
  · -- the six checks pass one after another
    intro h
    obtain ⟨_, horientation⟩ := exists_choice "BC" "o" h.orientation
    obtain ⟨_, hheight⟩ := exists_height l.barcodeHeight h.height
    obtain ⟨_, habove⟩ := exists_choice "BC" "f" h.above
    obtain ⟨_, hbelow⟩ := exists_choice "BC" "g" h.below
    obtain ⟨_, hcheck⟩ := exists_choice "BC" "e" h.checkDigit
    obtain ⟨_, hmode⟩ := exists_choice "BC" "m" h.mode
    unfold checkBarcode
    rw [horientation, hheight, habove, hbelow, hcheck, hmode]
    rfl

/-! ## Verb by verb -/

/-- A font size that is not the usual one was chosen for the field, and what is kept for a barcode
was accepted. Neither depends on the state of the field. -/
structure Prepared (l : Label) : Prop where
  font : l.fieldFont = false → l.fontSize = defaultFontSize
  barcodeArgs : Askable l.barcodeArgs

theorem prepared_goTo (h : Prepared l) (x y : Int) : (goTo x y l).Everywhere Prepared :=
  .withValue h fun (_, _) _ => .call { h with } _

theorem prepared_resetFont (h : Prepared l) : (resetFont l).Everywhere Prepared :=
  .call { h with font := fun _ => rfl } _

theorem prepared_font (h : Prepared l) (args : List Text) : (font args l).Everywhere Prepared := by
  refine .withArgument h fun dots _ => .withValue h fun size _ => .call ?_ _
  -- the font is the field's own from now on
  exact { h with font := fun hnone => nomatch hnone }

theorem prepared_barcode (h : Prepared l) (args : List Text) :
    (barcode args l).Everywhere Prepared := by
  refine .withArgument h fun _ hcheck => .done ?_
  exact { h with barcodeArgs := checkBarcode_eq_ok_iff.1 hcheck }

theorem prepared_barcodeDefaults (h : Prepared l) (args : List Text) :
    (barcodeDefaults args l).Everywhere Prepared :=
  .withArgument h fun _ _ => .withArgument { h with } fun _ _ =>
    .withArgument { h with } fun _ _ => .done { h with }

theorem prepared_fieldData (h : Prepared l) (args : List Text) :
    (fieldData args l).Everywhere Prepared := by
  unfold fieldData
  split
  · exact .done { h with }
  · exact .call h _

theorem prepared_fieldOrigin (h : Prepared l) (args : List Text) :
    (fieldOrigin args l).Everywhere Prepared := by
  refine .withArgument h fun (x, y) _ => ?_
  have hgo := prepared_goTo h x y
  refine .andThen hgo fun _ => .done ?_
  split
  · exact { hgo.label with }
  · exact hgo.label

theorem prepared_drawPending (h : Prepared l) : (drawPending l).Everywhere Prepared := by
  refine .withValue h fun f _ => .andThen (.andThen (.note h _) fun _ => .call h _) fun _ => ?_
  exact .done { h with barcodeArgs := askable_nil }

/-- With the barcode drawn nothing is kept, and the usual font is set again. -/
theorem prepared_fieldEnd (h : Prepared l) : (fieldEnd l).Everywhere Prepared := by
  have hdraw : (if l.isPending then drawPending l else .done l).Everywhere Prepared := by
    split
    · exact prepared_drawPending h
    · exact .done h
  have hfont := hdraw.andThen (f := resetFont) fun _ => prepared_resetFont hdraw.label
  have hgo := hfont.andThen (f := goTo 0 0) fun _ => prepared_goTo hfont.label 0 0
  exact hgo.andThen fun _ => .done { hgo.label with }

/-- Every command leaves a label prepared, whatever comes of it. -/
theorem prepared_step (name : Text) (args : List Text) (l : Label) (h : Prepared l) :
    (l.step name args).Everywhere Prepared := by
  unfold step
  split
  · next v _ =>
    cases v with
    | font => exact prepared_font h args
    | namedFont => exact .note h _
    | barcode => exact prepared_barcode h args
    | barcodeDefaults => exact prepared_barcodeDefaults h args
    | fieldData => exact prepared_fieldData h args
    | fieldOrigin => exact prepared_fieldOrigin h args
    | fieldEnd => exact prepared_fieldEnd h
    | box => exact .withArgument h fun _ _ => .withValue h fun (_, _, _) _ => .call h _
    | home =>
      exact .withArgument h fun (_, _) _ => .withValue h fun (_, _) _ => .done { h with }
  · exact .note h _

/-! ## Between commands -/

/-- The state of a field, its font and what is kept for a barcode go together. -/
structure Consistent (l : Label) : Prop where
  /-- Nothing is kept for a barcode unless one waits. -/
  resting : l.state ≠ .barcodePending → l.content = .empty ∧ l.barcodeArgs = []
  /-- The font is the usual one unless the field has chosen one. -/
  font : l.fieldFont = false → l.fontSize = 12.0
  /-- What is kept for a barcode passes the check of `BC` at any time. -/
  accepted : Askable l.barcodeArgs ∧ ∀ m, checkBarcode l.barcodeArgs m = .ok ()
  /-- The height that is read again is an integer within bounds. -/
  height : ∃ n, l.pendingHeight = .ok n ∧ 1 ≤ n ∧ n ≤ maxDots

end Label

namespace Press

/-- A label starts with the usual font and nothing kept. -/
theorem prepared_start (resolution : Option Number) (width height : Json) (surface : Surface) :
    (start resolution width height surface).state.label.Prepared := by
  have hfirst : Label.Prepared { resolution } := ⟨fun _ => rfl, Label.askable_nil⟩
  refine label_take (.andThen (.call hfirst _) fun _ => ?_) _
  exact Label.prepared_resetFont hfirst

/-- A label is consistent after any commands, whatever came of each of them, on any page of any
surface. So the end of a field always finds a height for the barcode that waits. -/
theorem consistent_after (resolution : Option Number) (width height : Json) (surface : Surface)
    (history : List Command) :
    (after history (start resolution width height surface).state).label.Consistent := by
  have horderly := label_after Label.orderly_step
    (orderly_start resolution width height surface) history
  have hprepared := label_after Label.prepared_step
    (prepared_start resolution width height surface) history
  obtain ⟨_, -, -, hbounded⟩ := within_calls resolution (fun _ => True) trivial
    (fun _ _ => trivial) width height surface history
  refine ⟨fun hstate => horderly.resting ?_, hprepared.font,
    ⟨hprepared.barcodeArgs, fun _ => ?_⟩, ?_⟩
  · unfold Label.isPending
    simpa using hstate
  · exact Label.checkBarcode_eq_ok_iff.2 hprepared.barcodeArgs
  · exact Label.exists_pendingHeight hbounded.barcodeHeight hprepared.barcodeArgs.height

end Press

end LabelPress
