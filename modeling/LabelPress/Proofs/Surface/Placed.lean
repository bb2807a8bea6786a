import LabelPress.Proofs.Surface.Drawn
import LabelPress.Surface
import Mathlib.Analysis.SpecialFunctions.Trigonometric.Basic
import Mathlib.Tactic.Linarith

/-!
# Where barcodes and rectangles come to lie

A canvas turns a drawing counter-clockwise about the origin to which it was moved, and takes drawings
and rectangles by their lower left corners. With the placements and frames of exact numbers:

* a barcode hangs from the cursor, whichever way it is turned: its left edge and its upper edge are
  those of the cursor (`Geometry.image_point`);
* a rectangle hangs from the corner that was asked for (`Geometry.frame_edges`), and one inside the
  label is inside the page (`Geometry.box_frame_subset`).

Pages follow the same rules with floating-point numbers. What they tell the canvas is `HasBarcode`
and `HasRectangle`.
-/

namespace LabelPress

namespace Geometry

open Real (pi cos sin)

/-- The points of a rectangle, by its lower left corner, its width and its height. -/
def box (x y width height : ℚ) : Set (ℝ × ℝ) :=
  {q | (x : ℝ) ≤ q.1 ∧ q.1 ≤ ((x + width : ℚ) : ℝ) ∧ (y : ℝ) ≤ q.2 ∧ q.2 ≤ ((y + height : ℚ) : ℝ)}

/-- The points of a rectangle, by its upper left corner, its width and its height. -/
def hanging (left top width height : ℚ) : Set (ℝ × ℝ) :=
  {q | (left : ℝ) ≤ q.1 ∧ q.1 ≤ ((left + width : ℚ) : ℝ) ∧
    ((top - height : ℚ) : ℝ) ≤ q.2 ∧ q.2 ≤ (top : ℝ)}

/-- A point turned counter-clockwise about the origin. -/
noncomputable def turned (degrees : Int) (q : ℝ × ℝ) : ℝ × ℝ :=
  let angle := degrees * (pi / 180)
  (q.1 * cos angle - q.2 * sin angle, q.1 * sin angle + q.2 * cos angle)

/-- The cosine and the sine of the turn. -/
def quarter (o : Orientation) : ℝ × ℝ :=
  match o with
  | .normal => (1, 0)
  | .right => (0, -1)
  | .inverted => (-1, 0)
  | .bottomUp => (0, 1)

/-- The four turns are by whole quarters, of which cosine and sine are known. -/
theorem cos_sin_degrees (o : Orientation) :
    cos (o.degrees * (pi / 180)) = (quarter o).1 ∧ sin (o.degrees * (pi / 180)) = (quarter o).2 := by
  -- the degrees are whole numbers of quarters, and each is turned into its multiple of pi
  cases o with
  | normal =>
    have hangle : ((0 : Int) : ℝ) * (pi / 180) = 0 := by rw [Int.cast_zero, zero_mul]
    show cos (((0 : Int) : ℝ) * (pi / 180)) = 1 ∧ sin (((0 : Int) : ℝ) * (pi / 180)) = 0
    rw [hangle]
    exact ⟨Real.cos_zero, Real.sin_zero⟩
  | right =>
    have hangle : ((-90 : Int) : ℝ) * (pi / 180) = -(pi / 2) := by
      push_cast
      ring
    show cos (((-90 : Int) : ℝ) * (pi / 180)) = 0 ∧ sin (((-90 : Int) : ℝ) * (pi / 180)) = -1
    rw [hangle, Real.cos_neg, Real.sin_neg, Real.cos_pi_div_two, Real.sin_pi_div_two]
    exact ⟨rfl, rfl⟩
  | inverted =>
    have hangle : ((180 : Int) : ℝ) * (pi / 180) = pi := by
      push_cast
      ring
    show cos (((180 : Int) : ℝ) * (pi / 180)) = -1 ∧ sin (((180 : Int) : ℝ) * (pi / 180)) = 0
    rw [hangle]
    exact ⟨Real.cos_pi, Real.sin_pi⟩
  | bottomUp =>
    have hangle : ((90 : Int) : ℝ) * (pi / 180) = pi / 2 := by
      push_cast
      ring
    show cos (((90 : Int) : ℝ) * (pi / 180)) = 0 ∧ sin (((90 : Int) : ℝ) * (pi / 180)) = 1
    rw [hangle]
    exact ⟨Real.cos_pi_div_two, Real.sin_pi_div_two⟩

/-- Where a point of the drawing comes to lie: the drawing is turned about the origin to which the
canvas was moved. -/
noncomputable def Placement.point (g : Placement ℚ) (q : ℝ × ℝ) : ℝ × ℝ :=
  (g.originX + (turned g.degrees q).1, g.originY + (turned g.degrees q).2)

/-- The width and the height of a turned drawing. -/
def extent (o : Orientation) (width height : ℚ) : ℚ × ℚ :=
  match o with
  | .normal | .inverted => (width, height)
  | .right | .bottomUp => (height, width)

theorem mem_box {x y width height : ℚ} {q : ℝ × ℝ} :
    q ∈ box x y width height ↔
      (x : ℝ) ≤ q.1 ∧ q.1 ≤ x + width ∧ (y : ℝ) ≤ q.2 ∧ q.2 ≤ y + height := by
  unfold box
  rw [Set.mem_ofPred_eq]
  push_cast
  rfl

theorem mem_hanging {left top width height : ℚ} {q : ℝ × ℝ} :
    q ∈ hanging left top width height ↔
      (left : ℝ) ≤ q.1 ∧ q.1 ≤ left + width ∧ (top : ℝ) - height ≤ q.2 ∧ q.2 ≤ top := by
  unfold hanging
  rw [Set.mem_ofPred_eq]
  push_cast
  rfl

/-- Where the points of a drawing come to lie, without the cosine and the sine. -/
theorem point_placement (scale pageHeight cursorX cursorY width height : ℚ) (o : Orientation)
    (q : ℝ × ℝ) :
    (placement Int.cast scale pageHeight cursorX cursorY o width height).point q =
      (cursorX * scale + (q.1 * (quarter o).1 - q.2 * (quarter o).2),
        (pageHeight - cursorY) * scale + (q.1 * (quarter o).2 + q.2 * (quarter o).1)) := by
  obtain ⟨hcos, hsin⟩ := cos_sin_degrees o
  unfold Placement.point turned
  simp only [placement, rise, hcos, hsin]
  push_cast
  rfl

/-- A drawing hangs from the cursor. -/
theorem image_point (scale pageHeight cursorX cursorY width height : ℚ) (o : Orientation) :
    let g := placement Int.cast scale pageHeight cursorX cursorY o width height
    Set.image g.point (box g.x g.y width height) =
      hanging (cursorX * scale) ((pageHeight - cursorY) * scale) (extent o width height).1
        (extent o width height).2 := by
  intro g
  ext ⟨a, b⟩
  rw [Set.mem_image, mem_hanging]
  constructor
  · rintro ⟨q, hq, hpoint⟩
    rw [point_placement] at hpoint
    rw [mem_box] at hq
    obtain ⟨rfl, rfl⟩ := Prod.mk.inj hpoint
    cases o <;> simp only [g, placement, Orientation.shift, extent, quarter] at hq ⊢ <;>
      push_cast at hq ⊢ <;> refine ⟨?_, ?_, ?_, ?_⟩ <;> linarith
  · intro hq
    -- the point is turned back about the cursor
    let x : ℝ := a - cursorX * scale
    let y : ℝ := b - (pageHeight - cursorY) * scale
    refine ⟨(x * (quarter o).1 + y * (quarter o).2, y * (quarter o).1 - x * (quarter o).2), ?_, ?_⟩
    · rw [mem_box]
      cases o <;> simp only [g, x, y, placement, Orientation.shift, extent, quarter] at hq ⊢ <;>
        push_cast at hq ⊢ <;> refine ⟨?_, ?_, ?_, ?_⟩ <;> linarith
    · rw [point_placement]
      cases o <;> exact Prod.ext (by simp only [quarter, x, y]; ring)
        (by simp only [quarter, x, y]; ring)

/-! ## Rectangles -/

/-- A rectangle whose upper edge is `y` below that of the page. -/
theorem frame_edges (scale pageHeight x y width height : ℚ) :
    let f := frame scale pageHeight x (y + height) width height
    f.x = x * scale ∧ f.width = width * scale ∧ f.y + f.height = (pageHeight - y) * scale ∧
      f.y = (pageHeight - y - height) * scale := by
  refine ⟨rfl, rfl, ?_, ?_⟩
  · show (pageHeight - (y + height)) * scale + height * scale = (pageHeight - y) * scale
    ring
  · show (pageHeight - (y + height)) * scale = (pageHeight - y - height) * scale
    ring

/-- A rectangle inside the label is one inside the page. -/
theorem box_frame_subset {scale pageWidth pageHeight x y width height : ℚ} (hscale : 0 ≤ scale)
    (hleft : 0 ≤ x) (hright : x + width ≤ pageWidth) (htop : 0 ≤ y)
    (hbottom : y + height ≤ pageHeight) :
    let f := frame scale pageHeight x (y + height) width height
    box f.x f.y f.width f.height ⊆ box 0 0 (pageWidth * scale) (pageHeight * scale) := by
  intro f q hq
  obtain ⟨hx, hwidth, htopEdge, hy⟩ := frame_edges scale pageHeight x y width height
  have hfx : 0 ≤ f.x := mul_nonneg hleft hscale
  have hfy : 0 ≤ f.y := mul_nonneg (by linarith) hscale
  have hfright : f.x + f.width ≤ pageWidth * scale := by
    show x * scale + width * scale ≤ pageWidth * scale
    rw [← add_mul]
    exact mul_le_mul_of_nonneg_right hright hscale
  have hftop : f.y + f.height ≤ pageHeight * scale := by
    rw [htopEdge]
    exact mul_le_mul_of_nonneg_right (by linarith) hscale
  -- four edges, of which none lies beyond that of the page
  obtain ⟨h1, h2, h3, h4⟩ := hq
  exact ⟨(Rat.cast_le.2 hfx).trans h1, h2.trans (Rat.cast_le.2 (by rwa [zero_add])),
    (Rat.cast_le.2 hfy).trans h3, h4.trans (Rat.cast_le.2 (by rwa [zero_add]))⟩

end Geometry

/-! ## Pages -/

namespace Page

variable {p : Page}

theorem of_onDocument_none {f : Page → Outcome Page} (h : (p.onDocument f).fault = none) :
    p.onDocument f = f p := by
  unfold onDocument at h ⊢
  split
  · rfl
  · next hopened =>
    rw [if_neg hopened] at h
    cases h

/-- A barcode that is placed is drawn by five instructions. -/
theorem place_of_none {o : Orientation} {width height barHeight module : Float}
    (h : (p.place o width height barHeight module).fault = none) :
    let g := Geometry.placement Float.ofInt millimetre p.height p.x p.y o width height
    (p.place o width height barHeight module).state =
      p.tellAll [.saveState, .translate g.originX g.originY, .rotate g.degrees,
        .drawOn g.x g.y barHeight module, .restoreState] := by
  intro g
  unfold place at h ⊢
  obtain ⟨hrest, hstate⟩ := state_andThen_perform h
  have hdrawn := (Option.or_eq_none_iff.1 hrest).2
  rw [hstate]
  show (perform .restoreState (performAll _ (p.tellAll [.saveState])).state).state = _
  rw [performAll_of_none hdrawn, state_perform, tellAll_tellAll, tellAll_tellAll]
  rfl

/-- The page with a barcode on it: the drawing was made, measured by the canvas and placed. -/
def HasBarcode (p q : Page) (content : Argument) (f : Formatting) : Prop :=
  ∃ o width height barHeight module, Orientation.ofJson f.orientation = .ok o ∧
    p.canvas.drawingSize content barHeight module f.printBelow = (width, height) ∧
    let g := Geometry.placement Float.ofInt millimetre p.height p.x p.y o width height
    q = p.tellAll [.makeBarcode content barHeight module f.printBelow, .drawing width height,
      .saveState, .translate g.originX g.originY, .rotate g.degrees,
      .drawOn g.x g.y barHeight module, .restoreState]

/-- A barcode that is drawn is on the page with its content, its frame and its turn. -/
theorem hasBarcode_drawFormatted {content : Argument} {f : Formatting}
    (h : (p.drawFormatted content f).fault = none) :
    p.HasBarcode (p.drawFormatted content f).state content f := by
  unfold drawFormatted at h ⊢
  obtain ⟨⟨barHeight, module⟩, -, hsizes⟩ := Outcome.of_withValue_none h
  rw [hsizes] at h ⊢
  dsimp only at h ⊢
  obtain ⟨hmade, hstate⟩ := state_andThen_perform h
  obtain ⟨o, ho, hturned⟩ := Outcome.of_withValue_none hmade
  rw [hturned] at hmade
  rw [hstate, hturned]
  have hopened := of_onDocument_none hmade
  rw [hopened] at hmade ⊢
  -- the instructions of the three parts are one row
  rw [place_of_none hmade, tell_eq, tellAll_tellAll, tellAll_tellAll]
  exact ⟨o, _, _, _, _, ho, rfl, rfl⟩

/-- A barcode with content that is not refused is on the page. -/
theorem hasBarcode_drawBarcode {content : Argument} {f : Formatting}
    (hcontent : content.toJson.isTruthy = true)
    (h : (p.drawBarcode content (.formatting f)).fault = none) :
    p.HasBarcode (p.drawBarcode content (.formatting f)).state content f := by
  unfold drawBarcode at h ⊢
  rw [hcontent] at h ⊢
  simp only [Bool.not_true, Bool.false_eq_true, if_false] at h ⊢
  obtain ⟨-, hrest, hstate⟩ := Outcome.of_andThen_none h
  have hformatted : (p.drawFormatted content f).fault = none := Option.map_eq_none_iff.1 hrest
  rw [hstate]
  exact hasBarcode_drawFormatted hformatted

/-- The page with a rectangle on it, whose lower edge is `height` below its upper one. -/
def HasRectangle (p q : Page) (x y width height : Json) : Prop :=
  ∃ c t left sum bottom across down, x.factor = .ok left ∧ y.plus height = .ok sum ∧
    sum.toFloat = .ok bottom ∧ width.factor = .ok across ∧ height.factor = .ok down ∧
    let f := Geometry.frame millimetre p.height left bottom across down
    q = p.tellAll [.strokeColour c, .setLineWidth t, .rectangle f.x f.y f.width f.height]

/-- A rectangle that is not refused is on the page. -/
theorem hasRectangle_drawRect {x y width height thickness : Json} {ink : Argument}
    (h : (p.drawRect x y width height thickness ink).fault = none) :
    p.HasRectangle (p.drawRect x y width height thickness ink).state x y width height := by
  unfold drawRect at h ⊢
  have hopened := of_onDocument_none h
  rw [hopened] at h ⊢
  obtain ⟨c, -, hcolour⟩ := Outcome.of_withValue_none h
  rw [hcolour] at h ⊢
  -- no part was refused, so each of them told its instruction
  obtain ⟨hstroked, hstate⟩ := state_andThen_perform h
  obtain ⟨t, -, hthickness⟩ := Outcome.of_withValue_none hstroked
  rw [hstate, hthickness]
  rw [hthickness] at hstroked
  obtain ⟨hlined, hstate⟩ := state_andThen_perform hstroked
  obtain ⟨i, hi, hrectangle⟩ := Outcome.of_withValue_none hlined
  obtain ⟨left, sum, bottom, across, down, hleft, hsum, hbottom, hacross, hdown, rfl⟩ :=
    rectangle_eq_ok _ hi
  rw [hstate, hrectangle, state_perform, tellAll_tellAll, tellAll_tellAll]
  exact ⟨c, _, left, sum, bottom, across, down, hleft, hsum, hbottom, hacross, hdown, rfl⟩

end Page

namespace Orientation

/-- The letter of an orientation. -/
def letter : Orientation → String
  | normal => "N"
  | right => "R"
  | inverted => "I"
  | bottomUp => "B"

theorem ofJson_letter (o : Orientation) : ofJson (.string o.letter) = .ok o := by
  cases o <;> decide

end Orientation

namespace Page

open LabelPress.Geometry (placement frame box hanging extent)

/-- The upper left corner is kept. In exact numbers a barcode hangs from the cursor in each of its
orientations, upright or on its side, and a rectangle from its corner; one that is inside the label
is inside the page. Pages give the instructions of the same placements and frames in floating-point
numbers. -/
theorem keeps_topLeft :
    (∀ o : Orientation, Orientation.ofJson (.string o.letter) = .ok o) ∧
    (∀ (scale pageHeight cursorX cursorY width height : ℚ) (o : Orientation),
      let g := placement Int.cast scale pageHeight cursorX cursorY o width height
      Set.image g.point (box g.x g.y width height) =
        hanging (cursorX * scale) ((pageHeight - cursorY) * scale) (extent o width height).1
          (extent o width height).2) ∧
    (∀ scale pageWidth pageHeight x y width height : ℚ,
      let f := frame scale pageHeight x (y + height) width height
      f.x = x * scale ∧ f.width = width * scale ∧ f.y + f.height = (pageHeight - y) * scale ∧
      f.y = (pageHeight - y - height) * scale ∧
      (0 ≤ scale → 0 ≤ x → x + width ≤ pageWidth → 0 ≤ y → y + height ≤ pageHeight →
        box f.x f.y f.width f.height ⊆ box 0 0 (pageWidth * scale) (pageHeight * scale))) ∧
    (∀ (p : Page) (content : Argument) (f : Formatting), content.toJson.isTruthy = true →
      (p.drawBarcode content (.formatting f)).fault = none →
      p.HasBarcode (p.drawBarcode content (.formatting f)).state content f) ∧
    ∀ (p : Page) (x y width height thickness : Json) (ink : Argument),
      (p.drawRect x y width height thickness ink).fault = none →
      p.HasRectangle (p.drawRect x y width height thickness ink).state x y width height := by
  refine ⟨Orientation.ofJson_letter, Geometry.image_point, ?_, ?_, ?_⟩
  · intro scale pageWidth pageHeight x y width height f
    obtain ⟨hleft, hwidth, htop, hbottom⟩ := Geometry.frame_edges scale pageHeight x y width height
    exact ⟨hleft, hwidth, htop, hbottom, Geometry.box_frame_subset⟩
  · intro p content f hcontent h
    exact hasBarcode_drawBarcode hcontent h
  · intro p x y width height thickness ink h
    exact hasRectangle_drawRect h

/-- A drawing of four by three that is turned to the right, and a rectangle of two by two in the
lower left corner of a label of ten by ten. -/
theorem keeps_topLeft_right :
    let g := placement Int.cast 2 10 1 3 .right 4 3
    let f := frame (2 : ℚ) 10 0 (8 + 2) 2 2
    Set.image g.point (box g.x g.y 4 3) = hanging (1 * 2) ((10 - 3) * 2) 3 4 ∧
      box f.x f.y f.width f.height ⊆ box 0 0 (10 * 2) (10 * 2) := by
  obtain ⟨-, hbarcode, hrectangle, -⟩ := keeps_topLeft
  have hinside := (hrectangle 2 10 10 0 8 2 2).2.2.2.2
  exact ⟨hbarcode 2 10 1 3 4 3 .right, hinside (by norm_num) (by norm_num) (by norm_num)
    (by norm_num) (by norm_num)⟩

end Page

end LabelPress
