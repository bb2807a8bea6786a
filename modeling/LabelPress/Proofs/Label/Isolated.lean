import LabelPress.Proofs.Label.Field
import LabelPress.Proofs.Press.History

/-!
# Fields do not touch each other

A label sets a few things for good, home and the defaults of barcodes, and everything else for one
field. The end of a field does not clear all of it: content and arguments of a barcode go only if a
barcode waits. That nothing is left nevertheless rests on `Orderly`, which every command keeps,
also one that fails: as long as no barcode waits there is no content and there are no arguments.

So a label that has ended a field is known from what is set for good (`label_of_fieldEnd`), and two
of them with the same settings are one and the same label (`Press.fieldEnd_isolates`).
-/

namespace LabelPress

namespace Label

open Step (Everywhere)

variable {resolution : Option Number} {args : List Text} {l m : Label}

/-- A label at a resolution that holds nothing for a barcode unless one waits. -/
structure Orderly (resolution : Option Number) (l : Label) : Prop where
  resolution : l.resolution = resolution
  resting : l.isPending = false → l.content = .empty ∧ l.barcodeArgs = []

/-- The same things wait for the end of the field. -/
theorem Orderly.of_frame (h : Orderly resolution l) (hr : m.resolution = l.resolution)
    (hp : m.isPending = l.isPending) (hc : m.content = l.content)
    (ha : m.barcodeArgs = l.barcodeArgs) : Orderly resolution m where
  resolution := hr.trans h.resolution
  resting hrest := by
    rw [hc, ha]
    exact h.resting (hp ▸ hrest)

/-! ## Verb by verb -/

theorem orderly_goTo (h : Orderly resolution l) (x y : Int) :
    (goTo x y l).Everywhere (Orderly resolution) := by
  refine .withValue h fun (dx, dy) _ => .call ?_ _
  exact h.of_frame rfl rfl rfl rfl

theorem orderly_resetFont (h : Orderly resolution l) :
    (resetFont l).Everywhere (Orderly resolution) := by
  refine .call ?_ _
  exact h.of_frame rfl rfl rfl rfl

theorem orderly_font (h : Orderly resolution l) (args : List Text) :
    (font args l).Everywhere (Orderly resolution) := by
  refine .withArgument h fun dots _ => .withValue h fun size _ => .call ?_ _
  exact h.of_frame rfl rfl rfl rfl

/-- A barcode that is asked for waits, with its arguments. -/
theorem orderly_barcode (h : Orderly resolution l) (args : List Text) :
    (barcode args l).Everywhere (Orderly resolution) := by
  refine .withArgument h fun _ _ => .done ⟨h.resolution, fun hrest => ?_⟩
  -- a barcode waits now
  cases hrest

/-- `BY` sets values for all barcodes, before or after any refusal. -/
theorem orderly_barcodeDefaults (h : Orderly resolution l) (args : List Text) :
    (barcodeDefaults args l).Everywhere (Orderly resolution) := by
  refine .withArgument h fun w _ => ?_
  have hw : Orderly resolution { l with moduleWidth := w } := h.of_frame rfl rfl rfl rfl
  refine .withArgument hw fun r _ => ?_
  have hr : Orderly resolution { l with moduleWidth := w, wideRatio := r } :=
    h.of_frame rfl rfl rfl rfl
  exact .withArgument hr fun b _ => .done (h.of_frame rfl rfl rfl rfl)

/-- Data are kept only while a barcode waits, and are drawn at once otherwise. -/
theorem orderly_fieldData (h : Orderly resolution l) (args : List Text) :
    (fieldData args l).Everywhere (Orderly resolution) := by
  unfold fieldData
  split
  · next hpending =>
    refine .done ⟨h.resolution, fun hrest => ?_⟩
    have hsame : l.isPending = false := hrest
    rw [hpending] at hsame
    cases hsame
  · exact .call h _

/-- An origin opens a field on an idle label and leaves any other state as it is. -/
theorem orderly_fieldOrigin (h : Orderly resolution l) (args : List Text) :
    (fieldOrigin args l).Everywhere (Orderly resolution) := by
  refine .withArgument h fun (x, y) _ => ?_
  have hgo := orderly_goTo h x y
  refine .andThen hgo fun _ => ?_
  split
  · next hidle =>
    -- neither an idle label nor one with an open field has a barcode that waits
    have hrest : (goTo x y l).label.isPending = false := by
      unfold isPending
      rw [hidle]
      rfl
    exact .done (hgo.label.of_frame rfl hrest.symm rfl rfl)
  · exact .done hgo.label

/-- What waited is drawn and forgotten. -/
theorem orderly_drawPending (h : Orderly resolution l) :
    (drawPending l).Everywhere (Orderly resolution) := by
  refine .withValue h fun f _ => .andThen ?_ fun _ => ?_
  · exact .andThen (.note h _) fun _ => .call h _
  · exact .done ⟨h.resolution, fun _ => ⟨rfl, rfl⟩⟩

/-- The barcode that waits, if one does, is drawn and gone. -/
theorem emptied_of_none (h : Orderly resolution l)
    (hnone : (if l.isPending then drawPending l else .done l).fault = none) :
    (if l.isPending then drawPending l else .done l).label =
      { l with content := .empty, barcodeArgs := [] } := by
  cases hpending : l.isPending with
  | true =>
    rw [hpending, if_pos rfl] at hnone
    obtain ⟨_, -, -, hlabel⟩ := Field.drawPending_of_none hnone
    rw [if_pos rfl, hlabel]
  | false =>
    obtain ⟨hcontent, hargs⟩ := h.resting hpending
    rw [if_neg Bool.false_ne_true, Step.label_done, ← hcontent, ← hargs]

/-- Behind the end of a field nothing waits; a refusal on the way leaves the barcode waiting. -/
theorem orderly_fieldEnd (h : Orderly resolution l) :
    (fieldEnd l).Everywhere (Orderly resolution) := by
  have hdraw : (if l.isPending then drawPending l else .done l).Everywhere
      (Orderly resolution) := by
    split
    · exact orderly_drawPending h
    · exact .done h
  have hfont := hdraw.andThen (f := resetFont) fun _ => orderly_resetFont hdraw.label
  have hgo := hfont.andThen (f := goTo 0 0) fun _ => orderly_goTo hfont.label 0 0
  refine .andThen hgo fun hnone => .done ⟨hgo.label.resolution, fun _ => ?_⟩
  -- the label is idle only at the end, when the barcode has been drawn
  obtain ⟨hreset, hmove⟩ := Step.fault_andThen_eq_none.1 hnone
  obtain ⟨hdrawn, -⟩ := Step.fault_andThen_eq_none.1 hreset
  obtain ⟨x, y, hstep⟩ := Field.goTo_eq_of_none hmove
  rw [Step.label_andThen hreset, hstep, Step.label_call, Step.label_andThen hdrawn,
    emptied_of_none h hdrawn]
  exact ⟨rfl, rfl⟩

/-- Every command keeps a label orderly, whatever comes of it. -/
theorem orderly_step (name : Text) (args : List Text) (l : Label) (h : Orderly resolution l) :
    (l.step name args).Everywhere (Orderly resolution) := by
  unfold step
  split
  · next v _ =>
    cases v with
    | font => exact orderly_font h args
    | namedFont => exact .note h _
    | barcode => exact orderly_barcode h args
    | barcodeDefaults => exact orderly_barcodeDefaults h args
    | fieldData => exact orderly_fieldData h args
    | fieldOrigin => exact orderly_fieldOrigin h args
    | fieldEnd => exact orderly_fieldEnd h
    | box => exact .withArgument h fun _ _ => .withValue h fun (_, _, _) _ => .call h _
    | home =>
      exact .withArgument h fun (_, _) _ =>
        .withValue h fun (_, _) _ => .done (h.of_frame rfl rfl rfl rfl)
  · exact .note h _

/-! ## The end of a field -/

/-- What is left at the end of a field: the settings, and the cursor at the label home. -/
theorem label_of_fieldEnd (h : Orderly resolution l) (hnone : (fieldEnd l).fault = none) :
    ∃ zero, toMillimetres l (.int 0) = .ok zero ∧ (fieldEnd l).label = {
      resolution := resolution
      homeX := l.homeX
      homeY := l.homeY
      x := l.homeX + zero
      y := l.homeY + zero
      moduleWidth := l.moduleWidth
      wideRatio := l.wideRatio
      barcodeHeight := l.barcodeHeight } := by
  obtain ⟨hgone, -⟩ := Step.fault_andThen_eq_none.1 hnone
  obtain ⟨hreset, hmove⟩ := Step.fault_andThen_eq_none.1 hgone
  obtain ⟨hdrawn, -⟩ := Step.fault_andThen_eq_none.1 hreset
  have hlast : (fieldEnd l).label = _ := Step.label_andThen hgone _
  rw [Step.label_andThen hreset] at hlast
  rw [Step.label_andThen hdrawn, emptied_of_none h hdrawn] at hlast hmove
  obtain ⟨⟨dx, dy⟩, hvalue, hstep⟩ := Step.withValue_eq_of_none hmove
  -- both distances are none, and so the same
  obtain ⟨zero, hzero, hrest⟩ := Except.bind_eq_ok.1 hvalue
  obtain ⟨again, hagain, hpair⟩ := Except.bind_eq_ok.1 hrest
  have hdx : zero = dx ∧ again = dy := by
    cases hpair
    exact ⟨rfl, rfl⟩
  rw [hzero, Except.ok.injEq] at hagain
  obtain ⟨rfl, rfl⟩ := hdx
  subst hagain
  refine ⟨zero, hzero, hlast.trans ?_⟩
  rw [show goTo 0 0 _ = _ from hstep, Step.label_call, ← h.resolution]
  rfl

end Label

namespace Press

open Recording (Extends)

variable {resolution : Option Number} {p q : Press}

/-- A label starts with nothing that waits. -/
theorem orderly_start (resolution : Option Number) (width height : Json) (surface : Surface) :
    (start resolution width height surface).state.label.Orderly resolution := by
  have hfirst : Label.Orderly resolution { resolution } := ⟨rfl, fun _ => ⟨rfl, rfl⟩⟩
  refine label_take (.andThen (.call hfirst _) fun _ => ?_) _
  exact Label.orderly_resetFont hfirst

/-- A press that has just ended a field: a new label was given any commands, whatever came of each
of them, and then one that ends the field and went through. -/
def EndsField (resolution : Option Number) (p : Press) : Prop :=
  ∃ width height surface history c, Command.does .fieldEnd c = true ∧
    ((after history (start resolution width height surface).state).dispatch c.name c.args).fault =
      none ∧
    p = ((after history (start resolution width height surface).state).dispatch c.name c.args).state

/-- Whatever came before, the end of a field leaves one and the same state for the next field:
besides the resolution nothing of the field is left. -/
theorem EndsField.label (h : EndsField resolution p) :
    p.label.resolution = resolution ∧ ∃ zero, p.label.toMillimetres (.int 0) = .ok zero ∧
      p.label = {
        resolution := resolution
        homeX := p.label.homeX
        homeY := p.label.homeY
        x := p.label.homeX + zero
        y := p.label.homeY + zero
        moduleWidth := p.label.moduleWidth
        wideRatio := p.label.wideRatio
        barcodeHeight := p.label.barcodeHeight } := by
  obtain ⟨width, height, surface, history, c, hc, hnone, rfl⟩ := h
  -- the history may be any, but it has left an orderly label
  have hbefore : (after history (start resolution width height surface).state).label.Orderly
      resolution := label_after Label.orderly_step (orderly_start resolution width height surface) _
  unfold dispatch at hnone ⊢
  rw [Field.step_of_does hc] at hnone ⊢
  obtain ⟨hstep, hlabel⟩ := of_take_none hnone
  obtain ⟨zero, hzero, hend⟩ := Label.label_of_fieldEnd hbefore hstep
  have hall := hlabel.trans hend
  rw [hall]
  refine ⟨rfl, zero, ?_, rfl⟩
  unfold Label.toMillimetres at hzero ⊢
  rw [hbefore.resolution] at hzero
  exact hzero

/-- Nothing of a field but the label home and the defaults of barcodes is left behind its end. Two
presses at one resolution that have just ended a field, each after a history of its own, stand at
the same label if they agree in these. So whatever commands follow, on recordings they add the same
entries and fail in the same way. -/
theorem fieldEnd_isolates (hp : EndsField resolution p) (hq : EndsField resolution q)
    (hx : p.label.homeX = q.label.homeX) (hy : p.label.homeY = q.label.homeY)
    (hwidth : p.label.moduleWidth = q.label.moduleWidth)
    (hratio : p.label.wideRatio = q.label.wideRatio)
    (hheight : p.label.barcodeHeight = q.label.barcodeHeight) :
    p.label = q.label ∧ ∀ (cs : List Command) (r s : Recording), ∃ l entries t u,
      after cs ⟨p.label, .recording r⟩ = ⟨l, .recording t⟩ ∧
        after cs ⟨q.label, .recording s⟩ = ⟨l, .recording u⟩ ∧
        Extends r t entries ∧ Extends s u entries ∧
        faults cs ⟨p.label, .recording r⟩ = faults cs ⟨q.label, .recording s⟩ := by
  obtain ⟨hpr, zero, hpzero, hpl⟩ := hp.label
  obtain ⟨hqr, zero', hqzero, hql⟩ := hq.label
  have hzero : zero = zero' := by
    unfold Label.toMillimetres at hpzero hqzero
    rw [hpr] at hpzero
    rw [hqr, hpzero] at hqzero
    exact Except.ok.inj hqzero
  have hlabel : p.label = q.label := by
    rw [hpl, hql, hx, hy, hwidth, hratio, hheight, hzero]
  refine ⟨hlabel, fun cs r s => ?_⟩
  -- the label is the same, so what a recording is told from here on is the same
  obtain ⟨l, entries, xs, hall⟩ := after_recording cs p.label
  obtain ⟨t, ht, hrt, hxt⟩ := hall r
  obtain ⟨u, hu, hsu, hxu⟩ := hall s
  rw [← hlabel]
  exact ⟨l, entries, t, u, ht, hu, hrt, hsu, hxt.trans hxu.symm⟩

/-- A field with a font, a barcode that was asked for, refused another time and drawn, and a field
with a text: behind them, both labels are the same. -/
theorem fieldEnd_isolates_barcode :
    ((dispatch "FS" [] (after (List.map Command.parse ["^BY3", "^A0,50", "^BCR,50", "^BCX", "^FDab"])
        (start (some (.int 8)) (.int 100) (.int 50) (.recording {})).state)).state).label =
      ((dispatch "fs" ["x"] (after (List.map Command.parse ["^FDcd", "^BY3,x"])
        (start (some (.int 8)) (.int 70) (.int 30) (.recording {})).state)).state).label := by
  have hp : EndsField (some (.int 8)) _ :=
    ⟨.int 100, .int 50, .recording {},
      List.map Command.parse ["^BY3", "^A0,50", "^BCR,50", "^BCX", "^FDab"], ⟨none, "FS", []⟩,
      by decide, Option.isNone_iff_eq_none.1 (by decide), rfl⟩
  have hq : EndsField (some (.int 8)) _ :=
    ⟨.int 70, .int 30, .recording {}, List.map Command.parse ["^FDcd", "^BY3,x"],
      ⟨none, "fs", ["x"]⟩, by decide, Option.isNone_iff_eq_none.1 (by decide), rfl⟩
  refine (fieldEnd_isolates hp hq ?_ ?_ ?_ ?_ ?_).1
  -- both histories set the width of bars, one of them by a command that failed afterwards
  · exact Eq.trans (b := 0.0) rfl rfl
  · exact Eq.trans (b := 0.0) rfl rfl
  · exact Eq.trans (b := 3) rfl rfl
  · exact Eq.trans (b := 3.0) rfl rfl
  · exact Eq.trans (b := 10) rfl rfl

end Press

end LabelPress
