import LabelPress.Proofs.Label.Step
import Mathlib.Tactic.ByContra

/-!
# What every command keeps

Whatever a command is, and whatever its arguments are, the step that it takes is of one kind:

* all its calls are `Call.IsPlain`, with lengths that are floating-point numbers;
* it leaves the resolution as it is, and a label `Sound` if it was sound;
* it stops for an argument, or for a value if the label is not sound (`Label.Cause`).

A label is sound if all its lengths can be converted: those that a command may give, those that are
set for all barcodes, and the height that waits among the arguments of a pending barcode, which is
read again long after it was checked.
-/

namespace LabelPress

/-! ## Arguments that are allowed -/

namespace Argument

variable {command field : String} {arg : Option Text} {n default low high : Int}

/-- A number that is accepted was read from the text and is within its bounds. -/
theorem integerWithin_eq_ok {text : Text} {bound : Bound}
    (h : integerWithin command field text low high bound = .ok n) :
    Decimal.integer? text = some n ∧ low ≤ n ∧ n ≤ high := by
  unfold integerWithin at h
  split at h
  · cases h
  · next m hm =>
    split at h
    · cases h
    · cases h
      exact ⟨hm, by omega, by omega⟩

/-- An argument that is accepted is missing, which stands for the usual number, or such a number. -/
theorem integer_eq_ok (h : integer command field arg default low high = .ok n) :
    (arg = none ∧ n = default) ∨
      ∃ text, arg = some text ∧ Decimal.integer? text = some n ∧ low ≤ n ∧ n ≤ high := by
  cases arg with
  | none =>
    cases h
    exact Or.inl ⟨rfl, rfl⟩
  | some text => exact Or.inr ⟨text, rfl, integerWithin_eq_ok h⟩

/-- An integer that is allowed lies within the bounds, if the usual one does. -/
theorem integer_bounds (h : integer command field arg default low high = .ok n)
    (hlow : low ≤ default) (hhigh : default ≤ high) : low ≤ n ∧ n ≤ high := by
  rcases integer_eq_ok h with ⟨-, rfl⟩ | ⟨-, -, -, hbounds⟩
  · exact ⟨hlow, hhigh⟩
  · exact hbounds

/-- An extent is never less than the thickness. -/
theorem extent_bounds {thickness : Int} (h : extent command field arg thickness high = .ok n)
    (hhigh : thickness ≤ high) : thickness ≤ n ∧ n ≤ high := by
  cases arg with
  | none =>
    cases h
    exact ⟨Int.le_refl _, hhigh⟩
  | some text => exact (integerWithin_eq_ok h).2

end Argument

/-! ## Plain calls -/

/-- The calls of labels: lengths are floating-point numbers, and everything else is what its name
says. -/
inductive Call.IsPlain : Call → Prop where
  | moveCursor (x y : Float) : IsPlain (.moveCursor (.float x) (.float y))
  | setFontSize (n : Float) : IsPlain (.setFontSize (.float n))
  | drawText (t : Text) : IsPlain (.drawText (.text t))
  | drawRect (x y w h t : Float) (c : Colour) :
    IsPlain (.drawRect (.float x) (.float y) (.float w) (.float h) (.float t) (.colour c))
  | drawBarcode (content : Text) (f : Formatting) {height : Float} (hf : f.height = .float height) :
    IsPlain (.drawBarcode (.text content) (.formatting f))

namespace Label

open Argument (get? integer extent integer_bounds extent_bounds)

/-! ## Sound labels -/

/-- All lengths can be converted: those of commands, those set for all barcodes, and the height of
the pending barcode. -/
structure Sound (l : Label) : Prop where
  lengths : ∀ n : Int, 0 ≤ n → n ≤ maxDots → ∃ x, l.toMillimetres (.int n) = .ok x
  moduleWidth : 1 ≤ l.moduleWidth ∧ l.moduleWidth ≤ 10
  barcodeHeight : 1 ≤ l.barcodeHeight ∧ l.barcodeHeight ≤ maxDots
  pending : ∀ text, get? l.barcodeArgs 1 = some text →
    ∃ n, Decimal.integer? text = some n ∧ 1 ≤ n ∧ n ≤ maxDots

/-- A label after another: the resolution is the same, and soundness is not lost. -/
structure Follows (l m : Label) : Prop where
  resolution : m.resolution = l.resolution
  sound : l.Sound → m.Sound

/-- Why a step on a label may stop. -/
inductive Cause (l : Label) : Fault → Prop where
  | argument (e : ArgumentFault) : Cause l (.argument e)
  | value (e : ValueFault) (h : ¬ l.Sound) : Cause l (.value e)

variable {l m : Label}

theorem Follows.refl (l : Label) : Follows l l := ⟨rfl, id⟩

theorem Follows.trans {n : Label} (h : Follows l m) (hn : Follows m n) : Follows l n where
  resolution := hn.resolution.trans h.resolution
  sound hl := hn.sound (h.sound hl)

theorem Cause.mono {x : Fault} (h : Follows l m) (hx : Cause m x) : Cause l x := by
  cases hx with
  | argument e => exact .argument e
  | value e hm => exact .value e fun hl => hm (h.sound hl)

/-- A label that differs in nothing that concerns barcodes follows. -/
theorem Follows.of_frame (hr : m.resolution = l.resolution) (hw : m.moduleWidth = l.moduleWidth)
    (hh : m.barcodeHeight = l.barcodeHeight) (ha : m.barcodeArgs = l.barcodeArgs) :
    Follows l m where
  resolution := hr
  sound hl := by
    refine ⟨?_, hw ▸ hl.moduleWidth, hh ▸ hl.barcodeHeight, ha ▸ hl.pending⟩
    intro n hlow hhigh
    unfold toMillimetres
    rw [hr]
    exact hl.lengths n hlow hhigh

/-- Only the length of an unsound label cannot be converted. -/
theorem Sound.toMillimetres_ne_error {n : Int} {e : ValueFault} (hl : l.Sound) (hlow : 0 ≤ n)
    (hhigh : n ≤ maxDots) : l.toMillimetres (.int n) ≠ .error e := by
  obtain ⟨x, hx⟩ := hl.lengths n hlow hhigh
  rw [hx]
  simp

/-- A step on a label that goes to one that follows, with plain calls. -/
abbrev Regular (l : Label) (s : Step) : Prop :=
  s.Keeps (Follows l) Call.IsPlain (Cause l)

/-- Arguments may always be refused. -/
theorem regular_withArgument {A : Type} {x : Except ArgumentFault A} {f : A → Step}
    (hf : ∀ a, x = .ok a → l.Regular (f a)) : l.Regular (.withArgument m x f) :=
  .withArgument (fun e _ => .argument e) hf

/-- Values are of use if the label is sound. -/
theorem regular_withValue {A : Type} {x : Except ValueFault A} {f : A → Step}
    (hx : ∀ e, l.Sound → x ≠ .error e) (hf : ∀ a, x = .ok a → l.Regular (f a)) :
    l.Regular (.withValue m x f) :=
  .withValue (fun e he => .value e fun hl => hx e hl he) hf

/-! ## Verb by verb -/

/-- A place within the bounds can be gone to on a sound label. -/
theorem regular_goTo {x y : Int} (h : Follows l m) (hx : 0 ≤ x ∧ x ≤ maxDots)
    (hy : 0 ≤ y ∧ y ≤ maxDots) : l.Regular (goTo x y m) := by
  apply regular_withValue
  · intro e hl he
    obtain ⟨dx, hdx⟩ := (h.sound hl).lengths x hx.1 hx.2
    obtain ⟨dy, hdy⟩ := (h.sound hl).lengths y hy.1 hy.2
    rw [hdx, hdy] at he
    cases he
  · rintro ⟨dx, dy⟩ -
    exact .call (h.trans (.of_frame rfl rfl rfl rfl)) (.moveCursor _ _)

theorem regular_resetFont (h : Follows l m) : l.Regular (resetFont m) :=
  .call (h.trans (.of_frame rfl rfl rfl rfl)) (.setFontSize _)

/-- The dots of a font are within bounds, whichever of the two arguments they come from. -/
theorem fontDots_bounds {args : List Text} {n : Int} (h : fontDots args = .ok n) :
    minFontDots ≤ n ∧ n ≤ maxDots := by
  have hmin : minFontDots ≤ maxDots := by decide
  -- the height is the usual width, so its bounds are needed for those of the width
  have hsize (hx : (do
      let height ← integer "A" "h" (get? args 1) minFontDots minFontDots maxDots
      integer "A" "w" (get? args 2) height minFontDots maxDots) = .ok n) :
      minFontDots ≤ n ∧ n ≤ maxDots := by
    obtain ⟨height, hheight, hwidth⟩ := Except.bind_eq_ok.1 hx
    have hb := integer_bounds hheight (Int.le_refl _) hmin
    exact integer_bounds hwidth hb.1 hb.2
  unfold fontDots at h
  split at h
  · split at h
    · obtain ⟨_, -, hrest⟩ := Except.bind_eq_ok.1 h
      exact hsize hrest
    · exact hsize h
  · exact hsize h

/-- The size of a font within bounds can be converted. -/
theorem regular_font (args : List Text) (l : Label) : l.Regular (font args l) := by
  apply regular_withArgument
  intro dots hdots
  have hb := fontDots_bounds hdots
  have hmin : 0 ≤ minFontDots := by decide
  apply regular_withValue
  · intro e hl
    exact hl.toMillimetres_ne_error (Int.le_trans hmin hb.1) hb.2
  · intro size _
    exact .call (.of_frame rfl rfl rfl rfl) (.setFontSize _)

/-- The height of a barcode that is asked for was checked. -/
theorem height_of_checkBarcode {args : List Text} (h : checkBarcode args l = .ok ()) :
    ∀ text, get? args 1 = some text → ∃ n, Decimal.integer? text = some n ∧ 1 ≤ n ∧ n ≤ maxDots := by
  unfold checkBarcode at h
  obtain ⟨_, -, h⟩ := Except.bind_eq_ok.1 h
  obtain ⟨n, hn, -⟩ := Except.bind_eq_ok.1 h
  intro text htext
  rcases Argument.integer_eq_ok hn with ⟨hnone, -⟩ | ⟨t, ht, hbounds⟩
  · rw [hnone] at htext
    cases htext
  · rw [ht, Option.some.injEq] at htext
    subst htext
    exact ⟨n, hbounds⟩

theorem regular_barcode (args : List Text) (l : Label) : l.Regular (barcode args l) := by
  apply regular_withArgument
  intro _ hcheck
  refine .done ⟨rfl, fun hl => ?_⟩
  exact ⟨hl.lengths, hl.moduleWidth, hl.barcodeHeight, height_of_checkBarcode hcheck⟩

/-- The values for all barcodes are set within their bounds, so lengths can be converted as
before. -/
theorem regular_barcodeDefaults (args : List Text) (l : Label) :
    l.Regular (barcodeDefaults args l) := by
  apply regular_withArgument
  intro w hw
  apply regular_withArgument
  intro r _
  apply regular_withArgument
  intro b hb
  refine .done ⟨rfl, fun hl => ?_⟩
  exact ⟨hl.lengths, integer_bounds hw hl.moduleWidth.1 hl.moduleWidth.2,
    integer_bounds hb hl.barcodeHeight.1 hl.barcodeHeight.2, hl.pending⟩

theorem regular_fieldData (args : List Text) (l : Label) : l.Regular (fieldData args l) := by
  unfold fieldData
  split
  · exact .done (.of_frame rfl rfl rfl rfl)
  · exact .call (.refl l) (.drawText _)

/-- An origin is within bounds, so it can be gone to. Whether a field is open already does not
matter. -/
theorem regular_fieldOrigin (args : List Text) (l : Label) : l.Regular (fieldOrigin args l) := by
  apply regular_withArgument
  rintro ⟨x, y⟩ hxy
  obtain ⟨hx, hy⟩ := Except.pair_eq_ok hxy
  apply Step.Keeps.andThen (regular_goTo (.refl l) (integer_bounds hx (by decide) (by decide))
    (integer_bounds hy (by decide) (by decide)))
  intro m hm
  split
  · exact .done (hm.trans (.of_frame rfl rfl rfl rfl))
  · exact .done hm

/-- What the formatting of a barcode is made of. -/
theorem formatting_eq_ok {f : Formatting} (h : l.formatting = .ok f) :
    ∃ dots height moduleWidth, l.pendingHeight = .ok dots ∧
      l.toMillimetres (.int dots) = .ok height ∧
      l.toMillimetres (.int l.moduleWidth) = .ok moduleWidth ∧
      f = {
        raw := .array (l.barcodeArgs.map .string)
        orientation := .string (letter l.barcodeArgs 0 "N")
        height := .float height
        moduleWidth := .float moduleWidth
        ratio := .float l.wideRatio
        printAbove := .bool (letter l.barcodeArgs 2 "N" == "Y")
        printBelow := .bool (letter l.barcodeArgs 3 "Y" == "Y")
        checkDigit := .bool (letter l.barcodeArgs 4 "N" == "Y")
        mode := .string (letter l.barcodeArgs 5 "N") } := by
  unfold formatting at h
  obtain ⟨dots, hdots, h⟩ := Except.bind_eq_ok.1 h
  obtain ⟨height, hheight, h⟩ := Except.bind_eq_ok.1 h
  obtain ⟨moduleWidth, hmodule, h⟩ := Except.bind_eq_ok.1 h
  cases h
  exact ⟨dots, height, moduleWidth, hdots, hheight, hmodule, rfl⟩

/-- The height that waits among the arguments was checked when the barcode was asked for. Without one
of its own the barcode has the height that is set now. -/
theorem exists_pendingHeight (hset : 1 ≤ l.barcodeHeight ∧ l.barcodeHeight ≤ maxDots)
    (hpending : ∀ text, get? l.barcodeArgs 1 = some text →
      ∃ n, Decimal.integer? text = some n ∧ 1 ≤ n ∧ n ≤ maxDots) :
    ∃ n, l.pendingHeight = .ok n ∧ 1 ≤ n ∧ n ≤ maxDots := by
  unfold pendingHeight
  cases ht : get? l.barcodeArgs 1 with
  | none => exact ⟨_, rfl, hset⟩
  | some text =>
    obtain ⟨n, hn, hbounds⟩ := hpending text ht
    refine ⟨n, ?_, hbounds⟩
    simp only [hn]

/-- A sound label can format its barcode: the height is read again as it was checked. -/
theorem Sound.formatting_ne_error {e : ValueFault} (hl : l.Sound) : l.formatting ≠ .error e := by
  obtain ⟨n, hn, hlow, hhigh⟩ := exists_pendingHeight hl.barcodeHeight hl.pending
  have hmodule := hl.moduleWidth
  have hmax : (10 : Int) ≤ maxDots := by decide
  obtain ⟨height, hh⟩ := hl.lengths n (by omega) hhigh
  obtain ⟨moduleWidth, hm⟩ := hl.lengths l.moduleWidth (by omega) (by omega)
  intro he
  unfold formatting at he
  rw [hn, hm] at he
  change (l.toMillimetres (.int n) >>= _) = _ at he
  rw [hh] at he
  cases he

/-- The height of a barcode that waits was accepted, so it is read again. -/
theorem regular_drawPending (h : Follows l m) : l.Regular (drawPending m) := by
  apply regular_withValue
  · intro e hl
    exact (h.sound hl).formatting_ne_error
  · intro f hf
    obtain ⟨_, height, _, -, -, -, rfl⟩ := formatting_eq_ok hf
    apply Step.Keeps.andThen (J := Follows l)
    · apply Step.Keeps.andThen (.note h)
      intro n hn
      exact .call hn (.drawBarcode _ _ rfl)
    · intro n hn
      refine .done (hn.trans ⟨rfl, fun hs => ?_⟩)
      exact ⟨hs.lengths, hs.moduleWidth, hs.barcodeHeight, fun _ ht => by cases ht⟩

/-- The end of a field draws what waits, then returns to the usual font and to the home position. -/
theorem regular_fieldEnd (l : Label) : l.Regular (fieldEnd l) := by
  have hzero : (0 : Int) ≤ 0 ∧ 0 ≤ maxDots := by decide
  unfold fieldEnd
  -- the barcode, then the font, then the cursor; the label is told last that no field is open
  apply Step.Keeps.andThen (J := Follows l)
  · apply Step.Keeps.andThen (J := Follows l)
    · apply Step.Keeps.andThen (J := Follows l)
      · split
        · exact regular_drawPending (.refl l)
        · exact .done (.refl l)
      · intro m hm
        exact regular_resetFont hm
    · intro m hm
      exact regular_goTo hm hzero hzero
  · intro m hm
    exact .done (hm.trans (.of_frame rfl rfl rfl rfl))

/-- A box is at least as wide and as high as it is thick. -/
theorem boxOf_bounds {args : List Text} {b : Box} (h : boxOf args = .ok b) :
    1 ≤ b.thickness ∧ (b.thickness ≤ b.width ∧ b.width ≤ maxDots) ∧
      b.thickness ≤ b.height ∧ b.height ≤ maxDots := by
  unfold boxOf at h
  obtain ⟨thickness, ht, h⟩ := Except.bind_eq_ok.1 h
  obtain ⟨width, hw, h⟩ := Except.bind_eq_ok.1 h
  obtain ⟨height, hh, h⟩ := Except.bind_eq_ok.1 h
  obtain ⟨_, -, h⟩ := Except.bind_eq_ok.1 h
  obtain ⟨_, -, h⟩ := Except.bind_eq_ok.1 h
  cases h
  have hthick := integer_bounds ht (Int.le_refl _) (by decide)
  exact ⟨hthick.1, extent_bounds hw hthick.2, extent_bounds hh hthick.2⟩

/-- So its sides can be converted. -/
theorem regular_box (args : List Text) (l : Label) : l.Regular (box args l) := by
  apply regular_withArgument
  intro b hb
  obtain ⟨ht, hw, hh⟩ := boxOf_bounds hb
  apply regular_withValue
  · intro e hl he
    obtain ⟨width, hwidth⟩ := hl.lengths b.width (by omega) hw.2
    obtain ⟨height, hheight⟩ := hl.lengths b.height (by omega) hh.2
    obtain ⟨thickness, hthickness⟩ := hl.lengths b.thickness (by omega) (by omega)
    rw [hwidth, hheight, hthickness] at he
    cases he
  · rintro ⟨width, height, thickness⟩ -
    exact .call (.refl l) (.drawRect ..)

/-- So can the home position. -/
theorem regular_home (args : List Text) (l : Label) : l.Regular (home args l) := by
  apply regular_withArgument
  rintro ⟨x, y⟩ hxy
  obtain ⟨hx, hy⟩ := Except.pair_eq_ok hxy
  have hbx := integer_bounds hx (by decide) (by decide)
  have hby := integer_bounds hy (by decide) (by decide)
  apply regular_withValue
  · intro e hl he
    obtain ⟨_, hdx⟩ := hl.lengths x hbx.1 hbx.2
    obtain ⟨_, hdy⟩ := hl.lengths y hby.1 hby.2
    rw [hdx, hdy] at he
    cases he
  · rintro ⟨homeX, homeY⟩ -
    exact .done (.of_frame rfl rfl rfl rfl)

/-- Whatever a command is, its step is regular. -/
theorem regular_step (name : Text) (args : List Text) (l : Label) :
    l.Regular (l.step name args) := by
  unfold step
  split
  · next v _ =>
    cases v with
    | font => exact regular_font args l
    | namedFont => exact .note (.refl l)
    | barcode => exact regular_barcode args l
    | barcodeDefaults => exact regular_barcodeDefaults args l
    | fieldData => exact regular_fieldData args l
    | fieldOrigin => exact regular_fieldOrigin args l
    | fieldEnd => exact regular_fieldEnd l
    | box => exact regular_box args l
    | home => exact regular_home args l
  · exact .note (.refl l)

/-- Commands together are regular too. -/
theorem regular_steps (cs : List Command) (l : Label) : l.Regular (l.steps cs) := by
  apply keeps_steps _ (Follows.refl l)
  intro c _ m hm
  exact (regular_step c.name c.args m).mono (fun _ => hm.trans) (fun _ => id)
    (fun _ => Cause.mono hm)

end Label

end LabelPress
