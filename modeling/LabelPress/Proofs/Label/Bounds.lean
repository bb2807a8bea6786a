import LabelPress.Proofs.Label.Verbs
import LabelPress.Proofs.Number.Order
import LabelPress.Proofs.Press.Watch

/-!
# Calls within bounds

Arguments are checked when they are given, and their values are used by other commands much later:
the label home and the defaults of barcodes are set for good, and the arguments of a barcode that has
been asked for are read a second time, without a check, at the end of the field. `Label.Bounded` says
that all of them keep to the bounds in which they were checked. Every command keeps it, also one that
fails, and makes calls that keep to the same bounds (`Call.Within`): `Label.heeds_step`.

A box is drawn at the place of the field, and this is where the cursor was moved last. So the bounds
are a watch on the cursor, `Label.bounds`.
-/

namespace LabelPress

/-! ## Arguments -/

namespace Argument

variable {command field default chosen : String} {arg : Option Text} {choices : List String}

/-- A letter that is accepted is the usual one for a missing argument, or one of the choices in
either case. -/
theorem choice_eq_ok (h : choice command field arg default choices = .ok chosen) :
    (arg = none ∧ chosen = default) ∨
      ∃ text, arg = some text ∧ chosen ∈ choices ∧ text.upper = .ofString chosen := by
  cases arg with
  | none =>
    cases h
    exact .inl ⟨rfl, rfl⟩
  | some text =>
    unfold choice at h
    simp only at h
    split at h
    · next c hc =>
      cases h
      have hupper : Text.ofString chosen = text.upper := by simpa using List.find?_some hc
      exact .inr ⟨text, rfl, List.mem_of_find?_eq_some hc, hupper.symm⟩
    · cases h

/-- A ratio is taken if it lies between two and three, or is no number. -/
theorem ratio_eq_ok {text : Text} {usual x : Float} :
    ratio command field (some text) usual = .ok x ↔
      Decimal.number? text = some x ∧ (x.isNaN = true ∨ (2.0 ≤ x ∧ x ≤ 3.0)) := by
  unfold ratio
  simp only
  cases Decimal.number? text with
  | none => simp
  | some y =>
    have htwo : (2.0 : Float).isNaN = false := by decide
    have hthree : (3.0 : Float).isNaN = false := by decide
    -- what is no number is not below the least ratio, nor above the greatest
    have hwithin := Decimal.within_iff (x := y) htwo hthree
    simp only
    split
    · next hout =>
      rw [hout] at hwithin
      simp only [Option.some.injEq]
      refine iff_of_false (fun h => nomatch h) ?_
      rintro ⟨rfl, hy⟩
      exact absurd (hwithin.2 hy) (by decide)
    · next hin =>
      rw [Bool.not_eq_true] at hin
      simp only [Except.ok.injEq, Option.some.injEq]
      refine ⟨?_, And.left⟩
      rintro rfl
      exact ⟨rfl, hwithin.1 hin⟩

end Argument

/-! ## Bounds -/

namespace Label

/-- The length of a number of dots in millimetres. -/
def IsDots (resolution : Option Number) (n : Int) (x : Float) : Prop :=
  toMillimetres { resolution } (.int n) = .ok x

/-- A length that is a number of dots between two bounds. -/
def IsLength (resolution : Option Number) (low high : Int) (x : Float) : Prop :=
  ∃ n, low ≤ n ∧ n ≤ high ∧ IsDots resolution n x

/-- A ratio of bars that a label can have. It lies between two and three, or is no number. -/
def IsRatio (x : Float) : Prop :=
  x.isNaN = true ∨ (2.0 ≤ x ∧ x ≤ 3.0)

end Label

open Label (IsDots IsLength IsRatio maxDots minFontDots)

/-- A barcode within bounds. -/
structure Formatting.Within (resolution : Option Number) (f : Formatting) : Prop where
  orientation : ∃ o ∈ Label.orientations, f.orientation = .string (.ofString o)
  mode : ∃ m ∈ Label.barcodeModes, f.mode = .string (.ofString m)
  height : ∃ x, f.height = .float x ∧ IsLength resolution 1 maxDots x
  moduleWidth : ∃ x, f.moduleWidth = .float x ∧ IsLength resolution 1 10 x
  ratio : ∃ x, f.ratio = .float x ∧ IsRatio x

/-- A call within bounds, with the cursor at a point. The label home is subject to a condition of its
own. -/
inductive Call.Within (resolution : Option Number) (home : Float → Prop) (cursor : Float × Float) :
    Call → Prop where
  | moveCursor {homeX homeY dx dy : Float} (hhomeX : home homeX) (hhomeY : home homeY)
    (hdx : IsLength resolution 0 maxDots dx) (hdy : IsLength resolution 0 maxDots dy) :
    Within resolution home cursor (.moveCursor (.float (homeX + dx)) (.float (homeY + dy)))
  | usualFont :
    Within resolution home cursor (.setFontSize (.float Label.defaultFontSize))
  | font {size : Float} (h : IsLength resolution minFontDots maxDots size) :
    Within resolution home cursor (.setFontSize (.float (Label.toPoints size)))
  | drawText (t : Text) : Within resolution home cursor (.drawText (.text t))
  | drawRect {w h t : Int} {width height thickness : Float} (ink : Colour) (ht : 1 ≤ t)
    (hw : t ≤ w ∧ w ≤ maxDots) (hh : t ≤ h ∧ h ≤ maxDots) (hwidth : IsDots resolution w width)
    (hheight : IsDots resolution h height) (hthickness : IsDots resolution t thickness) :
    Within resolution home cursor (.drawRect (.float cursor.1) (.float cursor.2) (.float width)
      (.float height) (.float thickness) (.colour ink))
  | drawBarcode (content : Text) {f : Formatting} (h : f.Within resolution) :
    Within resolution home cursor (.drawBarcode (.text content) (.formatting f))

/-- The cursor after a call. -/
def Call.cursorFrom (cursor : Float × Float) : Call → Float × Float
  | .moveCursor (.float x) (.float y) => (x, y)
  | _ => cursor

namespace Label

open Argument (get? integer choice integer_bounds choice_eq_ok)

/-- The arguments of a barcode are such as are accepted: its letters are known, and its height, if it
has one of its own, is within bounds. -/
structure Accepted (args : List Text) : Prop where
  orientation : ∃ o ∈ orientations, letter args 0 "N" = .ofString o
  mode : ∃ m ∈ barcodeModes, letter args 5 "N" = .ofString m
  height : ∀ text, get? args 1 = some text → ∃ n, Decimal.integer? text = some n ∧ 1 ≤ n ∧ n ≤ maxDots

/-- Everything that is set in a label is within bounds, and its place is that of the cursor. -/
structure Bounded (resolution : Option Number) (home : Float → Prop) (cursor : Float × Float)
    (l : Label) : Prop where
  resolution : l.resolution = resolution
  place : cursor = (l.x, l.y)
  homeX : home l.homeX
  homeY : home l.homeY
  moduleWidth : 1 ≤ l.moduleWidth ∧ l.moduleWidth ≤ 10
  wideRatio : IsRatio l.wideRatio
  barcodeHeight : 1 ≤ l.barcodeHeight ∧ l.barcodeHeight ≤ maxDots
  barcodeArgs : Accepted l.barcodeArgs

/-- The cursor is followed, calls are within bounds, and labels are bounded. -/
def bounds (resolution : Option Number) (home : Float → Prop) : Watch (Float × Float) where
  next := Call.cursorFrom
  Allows := Call.Within resolution home
  Holds := Bounded resolution home

variable {resolution : Option Number} {home : Float → Prop} {cursor : Float × Float} {l : Label}

theorem accepted_nil : Accepted [] where
  orientation := ⟨"N", by decide, by decide⟩
  mode := ⟨"N", by decide, by decide⟩
  height text h := by
    rw [Argument.get?_nil] at h
    cases h

/-- The capital letter of an argument that was accepted is one of the choices. -/
theorem letter_of_choice {command field default chosen : String} {args : List Text} {i : Nat}
    {choices : List String} (h : choice command field (get? args i) default choices = .ok chosen)
    (hdefault : default ∈ choices) (hupper : Text.upper default = .ofString default) :
    ∃ c ∈ choices, letter args i default = .ofString c := by
  unfold letter
  rcases choice_eq_ok h with ⟨hnone, -⟩ | ⟨text, htext, hchosen, hsame⟩
  · rw [hnone]
    exact ⟨default, hdefault, hupper⟩
  · rw [htext]
    exact ⟨chosen, hchosen, hsame⟩

/-- Arguments that pass the check of `BC` are accepted, and stay so whatever is set afterwards. -/
theorem accepted_of_checkBarcode {args : List Text} (h : checkBarcode args l = .ok ()) :
    Accepted args := by
  have hheight := height_of_checkBarcode h
  unfold checkBarcode at h
  obtain ⟨_, horientation, h⟩ := Except.bind_eq_ok.1 h
  obtain ⟨_, -, h⟩ := Except.bind_eq_ok.1 h
  obtain ⟨_, -, h⟩ := Except.bind_eq_ok.1 h
  obtain ⟨_, -, h⟩ := Except.bind_eq_ok.1 h
  obtain ⟨_, -, h⟩ := Except.bind_eq_ok.1 h
  obtain ⟨_, hmode, -⟩ := Except.bind_eq_ok.1 h
  exact ⟨letter_of_choice horientation (by decide) (by decide),
    letter_of_choice hmode (by decide) (by decide), hheight⟩

/-- A length that was converted is a number of dots at the resolution of the label. -/
theorem Bounded.isDots (h : Bounded resolution home cursor l) {n : Int} {x : Float}
    (hx : l.toMillimetres (.int n) = .ok x) : IsDots resolution n x := by
  unfold toMillimetres at hx
  rw [h.resolution] at hx
  exact hx

theorem Bounded.isLength (h : Bounded resolution home cursor l) {n low high : Int} {x : Float}
    (hn : low ≤ n ∧ n ≤ high) (hx : l.toMillimetres (.int n) = .ok x) :
    IsLength resolution low high x :=
  ⟨n, hn.1, hn.2, h.isDots hx⟩

/-! ## Verb by verb -/

/-- A place within the bounds is moved to from the home position. -/
theorem heeds_goTo (h : Bounded resolution home cursor l) {x y : Int} (hx : 0 ≤ x ∧ x ≤ maxDots)
    (hy : 0 ≤ y ∧ y ≤ maxDots) : (bounds resolution home).Heeded cursor (goTo x y l) := by
  refine .withValue h fun (dx, dy) hd => ?_
  obtain ⟨hdx, hdy⟩ := Except.pair_eq_ok hd
  refine .call (.moveCursor h.homeX h.homeY (h.isLength hx hdx) (h.isLength hy hdy)) ?_
  exact { h with place := rfl }

theorem heeds_resetFont (h : Bounded resolution home cursor l) :
    (bounds resolution home).Heeded cursor (resetFont l) :=
  .call .usualFont { h with }

theorem heeds_font (h : Bounded resolution home cursor l) (args : List Text) :
    (bounds resolution home).Heeded cursor (font args l) := by
  refine .withArgument h fun dots hdots => .withValue h fun size hsize => ?_
  exact .call (.font (h.isLength (fontDots_bounds hdots) hsize)) { h with }

theorem heeds_barcode (h : Bounded resolution home cursor l) (args : List Text) :
    (bounds resolution home).Heeded cursor (barcode args l) := by
  refine .withArgument h fun _ hcheck => .done ?_
  exact { h with barcodeArgs := accepted_of_checkBarcode hcheck }

/-- A ratio that is given is checked, and the one that is kept was. -/
theorem isRatio_of_ratio {args : List Text} {x : Float} (h : IsRatio l.wideRatio)
    (hx : Argument.ratio "BY" "r" (get? args 1) l.wideRatio = .ok x) : IsRatio x := by
  cases htext : get? args 1 with
  | none =>
    rw [htext] at hx
    cases hx
    exact h
  | some text =>
    rw [htext] at hx
    exact (Argument.ratio_eq_ok.1 hx).2

/-- A ratio that is a number out of bounds is refused, and the one that was set before is kept. -/
theorem refused_of_ratio {args : List Text} {text : Text} {x : Float}
    (htext : get? args 1 = some text) (hx : Decimal.number? text = some x) (hout : ¬ IsRatio x) :
    ∃ e, (barcodeDefaults args l).fault = some (.argument e) ∧
      (barcodeDefaults args l).label.wideRatio = l.wideRatio := by
  unfold barcodeDefaults
  -- the width may be refused before the ratio is looked at
  cases integer "BY" "w" (get? args 0) l.moduleWidth 1 10 with
  | error e => exact ⟨e, rfl, rfl⟩
  | ok w =>
    cases hratio : Argument.ratio "BY" "r" (get? args 1) l.wideRatio with
    | error e =>
      simp only [Step.withArgument, hratio]
      exact ⟨e, rfl, rfl⟩
    | ok y =>
      rw [htext] at hratio
      obtain ⟨hy, hin⟩ := Argument.ratio_eq_ok.1 hratio
      rw [hx, Option.some.injEq] at hy
      exact absurd (hy ▸ hin) hout

/-- What has been set before another value is refused is within bounds too. -/
theorem heeds_barcodeDefaults (h : Bounded resolution home cursor l) (args : List Text) :
    (bounds resolution home).Heeded cursor (barcodeDefaults args l) := by
  refine .withArgument h fun w hw => ?_
  have hwidth : Bounded resolution home cursor { l with moduleWidth := w } :=
    { h with moduleWidth := integer_bounds hw h.moduleWidth.1 h.moduleWidth.2 }
  refine .withArgument hwidth fun r hr => ?_
  have hratio : Bounded resolution home cursor { l with moduleWidth := w, wideRatio := r } :=
    { hwidth with wideRatio := isRatio_of_ratio h.wideRatio hr }
  refine .withArgument hratio fun b hb => .done ?_
  exact { hratio with barcodeHeight := integer_bounds hb h.barcodeHeight.1 h.barcodeHeight.2 }

theorem heeds_fieldData (h : Bounded resolution home cursor l) (args : List Text) :
    (bounds resolution home).Heeded cursor (fieldData args l) := by
  unfold fieldData
  split
  · exact .done { h with }
  · exact .call (.drawText _) h

theorem heeds_fieldOrigin (h : Bounded resolution home cursor l) (args : List Text) :
    (bounds resolution home).Heeded cursor (fieldOrigin args l) := by
  refine .withArgument h fun (x, y) hxy => ?_
  obtain ⟨hx, hy⟩ := Except.pair_eq_ok hxy
  have hgo := heeds_goTo h (integer_bounds hx (by decide) (by decide))
    (integer_bounds hy (by decide) (by decide))
  refine .andThen hgo fun _ v hv => .done ?_
  split
  · exact { hv with }
  · exact hv

/-- The barcode that waits is formatted within bounds: its letters and its height, which are not
checked again, are those that were accepted. -/
theorem Bounded.formatting (h : Bounded resolution home cursor l) {f : Formatting}
    (hf : l.formatting = .ok f) : f.Within resolution := by
  obtain ⟨dots, height, moduleWidth, hdots, hheight, hmodule, rfl⟩ := formatting_eq_ok hf
  obtain ⟨n, hn, hbounds⟩ := exists_pendingHeight h.barcodeHeight h.barcodeArgs.height
  rw [hdots, Except.ok.injEq] at hn
  subst hn
  obtain ⟨o, ho, horientation⟩ := h.barcodeArgs.orientation
  obtain ⟨m, hm, hmode⟩ := h.barcodeArgs.mode
  refine ⟨⟨o, ho, ?_⟩, ⟨m, hm, ?_⟩, ⟨height, rfl, h.isLength hbounds hheight⟩,
    ⟨moduleWidth, rfl, h.isLength h.moduleWidth hmodule⟩, ⟨_, rfl, h.wideRatio⟩⟩
  · exact congrArg Json.string horientation
  · exact congrArg Json.string hmode

/-- A barcode is drawn with arguments that were accepted, and with values for all barcodes that are
within their bounds. -/
theorem heeds_drawPending (h : Bounded resolution home cursor l) :
    (bounds resolution home).Heeded cursor (drawPending l) := by
  refine .withValue h fun f hf => .andThen (.andThen (.note h _) fun _ v hv => ?_) fun _ v hv => ?_
  · exact .call (.drawBarcode _ (h.formatting hf)) hv
  · exact .done { hv with barcodeArgs := accepted_nil }

/-- At the end of a field the barcode is drawn, the usual font is set, and the cursor goes home. -/
theorem heeds_fieldEnd (h : Bounded resolution home cursor l) :
    (bounds resolution home).Heeded cursor (fieldEnd l) := by
  have hdraw : (bounds resolution home).Heeded cursor
      (if l.isPending then drawPending l else .done l) := by
    split
    · exact heeds_drawPending h
    · exact .done h
  have hzero : (0 : Int) ≤ 0 ∧ 0 ≤ maxDots := by decide
  refine .andThen (.andThen (.andThen hdraw fun _ v hv => ?_) fun _ v hv => ?_) fun _ v hv => ?_
  · exact heeds_resetFont hv
  · exact heeds_goTo hv hzero hzero
  · exact .done { hv with }

/-- A box is drawn where the cursor was moved to last. -/
theorem heeds_box (h : Bounded resolution home cursor l) (args : List Text) :
    (bounds resolution home).Heeded cursor (box args l) := by
  refine .withArgument h fun b hb => .withValue h fun (width, height, thickness) hd => ?_
  obtain ⟨ht, hw, hh⟩ := boxOf_bounds hb
  obtain ⟨_, hwidth, hd⟩ := Except.bind_eq_ok.1 hd
  obtain ⟨_, hheight, hd⟩ := Except.bind_eq_ok.1 hd
  obtain ⟨_, hthickness, hd⟩ := Except.bind_eq_ok.1 hd
  cases hd
  -- the label draws at the place of its field, and that is where the watch has the cursor
  have hbox : Call.Within resolution home cursor _ := .drawRect b.colour ht hw hh
    (h.isDots hwidth) (h.isDots hheight) (h.isDots hthickness)
  rw [h.place] at hbox ⊢
  exact .call hbox { h with place := rfl }

/-- A home position that is accepted is within the bounds of a length. -/
theorem heeds_home (h : Bounded resolution home cursor l)
    (hlength : ∀ x, IsLength resolution 0 maxDots x → home x) (args : List Text) :
    (bounds resolution home).Heeded cursor (Label.home args l) := by
  refine .withArgument h fun (x, y) hxy => .withValue h fun (homeX, homeY) hd => .done ?_
  obtain ⟨hx, hy⟩ := Except.pair_eq_ok hxy
  obtain ⟨hhomeX, hhomeY⟩ := Except.pair_eq_ok hd
  exact { h with
    homeX := hlength _ (h.isLength (integer_bounds hx (by decide) (by decide)) hhomeX)
    homeY := hlength _ (h.isLength (integer_bounds hy (by decide) (by decide)) hhomeY) }

/-- Whatever a command is, and whatever comes of it, it heeds the bounds. -/
theorem heeds_step (hlength : ∀ x, IsLength resolution 0 maxDots x → home x) (name : Text)
    (args : List Text) (cursor : Float × Float) (l : Label)
    (h : Bounded resolution home cursor l) :
    (bounds resolution home).Heeded cursor (l.step name args) := by
  unfold step
  split
  · next v _ =>
    cases v with
    | font => exact heeds_font h args
    | namedFont => exact .note h _
    | barcode => exact heeds_barcode h args
    | barcodeDefaults => exact heeds_barcodeDefaults h args
    | fieldData => exact heeds_fieldData h args
    | fieldOrigin => exact heeds_fieldOrigin h args
    | fieldEnd => exact heeds_fieldEnd h
    | box => exact heeds_box h args
    | home => exact heeds_home h hlength args
  · exact .note h _

end Label

end LabelPress
