import LabelPress.Proofs.Label.Verbs
import LabelPress.Proofs.Press.Watch
import LabelPress.Proofs.Surface.Drawn
import LabelPress.Proofs.Surface.Recorded
import LabelPress.Proofs.Surface.Traced

/-!
# Where the surface draws

A surface draws texts and barcodes at its own cursor and in its own font, and the label keeps both a
second time. A command moves the one by a call and the other by itself, and may fail in between. The
two agree nevertheless whenever a command has ended, in whichever way (`Press.agrees_after`).

Both are compared with a third, the `Pen` that the calls move:

* `Pen.heeds_step`: the label has the pen of its calls, also if the last of them was refused;
* `Surface.hasPen_draw`: so has the surface, which may refuse a call only after it has put the pen
  where the call says.
-/

namespace LabelPress

/-- Where the next text or barcode is drawn, and in which font size. -/
structure Pen where
  x : Float
  y : Float
  size : Float

/-- The pen as the label keeps it. -/
def Label.pen (l : Label) : Pen := ⟨l.x, l.y, l.fontSize⟩

namespace Pen

/-- The pen after a call. -/
def next (pen : Pen) : Call → Pen
  | .moveCursor (.float x) (.float y) => { pen with x, y }
  | .setFontSize (.float size) => { pen with size }
  | _ => pen

/-- The pen is followed, any call is allowed, and the label keeps the pen. -/
def watch : Watch Pen where
  next := next
  Allows _ _ := True
  Holds pen l := pen = l.pen

/-! ## Verb by verb -/

variable {l : Label}

theorem heeds_goTo (x y : Int) (l : Label) : watch.Heeded l.pen (l.goTo x y) :=
  .withValue rfl fun _ _ => .call trivial rfl

theorem heeds_resetFont (l : Label) : watch.Heeded l.pen l.resetFont :=
  .call trivial rfl

theorem heeds_font (args : List Text) (l : Label) : watch.Heeded l.pen (l.font args) :=
  .withArgument rfl fun _ _ => .withValue rfl fun _ _ => .call trivial rfl

theorem heeds_barcodeDefaults (args : List Text) (l : Label) :
    watch.Heeded l.pen (l.barcodeDefaults args) :=
  .withArgument rfl fun _ _ => .withArgument rfl fun _ _ => .withArgument rfl fun _ _ => .done rfl

/-- Data are drawn where the pen is, or kept. -/
theorem heeds_fieldData (args : List Text) (l : Label) : watch.Heeded l.pen (l.fieldData args) := by
  unfold Label.fieldData
  split
  · exact .done rfl
  · exact .call trivial rfl

theorem heeds_fieldOrigin (args : List Text) (l : Label) :
    watch.Heeded l.pen (l.fieldOrigin args) := by
  refine .withArgument rfl fun (x, y) _ => .andThen (heeds_goTo x y l) fun _ v hv => .done ?_
  split
  · exact hv
  · exact hv

theorem heeds_drawPending (l : Label) : watch.Heeded l.pen l.drawPending :=
  .withValue rfl fun _ _ =>
    .andThen (.andThen (.note rfl _) fun _ _ hv => .call trivial hv) fun _ _ hv => .done hv

/-- The end of a field puts the pen back, if it comes to that. -/
theorem heeds_fieldEnd (l : Label) : watch.Heeded l.pen l.fieldEnd := by
  have hdraw : watch.Heeded l.pen (if l.isPending then l.drawPending else .done l) := by
    split
    · exact heeds_drawPending l
    · exact .done rfl
  refine .andThen (.andThen (.andThen hdraw ?_) ?_) fun _ v hv => .done hv
  · rintro - v rfl
    exact heeds_resetFont _
  · rintro - v rfl
    exact heeds_goTo 0 0 _

/-- Whatever a command is, and whatever comes of it, the label keeps the pen of its calls. -/
theorem heeds_step (name : Text) (args : List Text) (l : Label) :
    watch.Heeded l.pen (l.step name args) := by
  unfold Label.step
  split
  · next v _ =>
    cases v with
    | font => exact heeds_font args l
    | namedFont => exact .note rfl _
    | barcode => exact .withArgument rfl fun _ _ => .done rfl
    | barcodeDefaults => exact heeds_barcodeDefaults args l
    | fieldData => exact heeds_fieldData args l
    | fieldOrigin => exact heeds_fieldOrigin args l
    | fieldEnd => exact heeds_fieldEnd l
    | box => exact .withArgument rfl fun _ _ => .withValue rfl fun _ _ => .call trivial rfl
    | home => exact .withArgument rfl fun _ _ => .withValue rfl fun _ _ => .done rfl
  · exact .note rfl _

end Pen

/-! ## Surfaces -/

namespace Page

/-- The size in the last instruction that sets a font. -/
def lastSize? (p : Page) : Option Float :=
  p.instructions.toList.reverse.findSome? fun
    | .setFont _ size => some size
    | _ => none

theorem lastSize?_setFont (p : Page) (name : Json) (size : Float) :
    (p.tellAll [.setFont name size]).lastSize? = some size := by
  simp [lastSize?, toList_tellAll]

/-- Drawing sets no font. -/
theorem lastSize?_of_adds {p q : Page} (h : AddsDrawing p q) : q.lastSize? = p.lastSize? := by
  obtain ⟨is, his, rfl⟩ := h
  have hnone : (is.reverse.findSome? fun
      | .setFont _ size => some size
      | _ => none) = (none : Option Float) := by
    rw [List.findSome?_eq_none_iff]
    intro i hi
    have hdraws := his i (List.mem_reverse.1 hi)
    cases i with
    | setFont => cases hdraws
    | _ => rfl
  simp only [lastSize?, toList_tellAll, List.reverse_append, List.findSome?_append, hnone,
    Option.none_or]

end Page

namespace Surface

/-- The cursor as the surface keeps it. A trace keeps what it was given. -/
def cursor : Surface → Json × Json
  | .recording r => (.float r.x, .float r.y)
  | .trace t => (t.x, t.y)
  | .page p => (.float p.x, .float p.y)

/-- The surface draws with that pen. Only a page has a font, and has told its canvas about it. -/
structure HasPen (s : Surface) (pen : Pen) : Prop where
  cursor : s.cursor = (.float pen.x, .float pen.y)
  font : ∀ p, s = .page p → p.opened = true ∧ p.fontSize = pen.size ∧ p.lastSize? = some pen.size

variable {s : Surface} {pen : Pen} {c : Call} {cs : List Call}

theorem hasPen_page {p : Page} (hx : p.x = pen.x) (hy : p.y = pen.y) (hopened : p.opened = true)
    (hsize : p.fontSize = pen.size) (hlast : p.lastSize? = some pen.size) :
    HasPen (.page p) pen where
  cursor := by rw [cursor, hx, hy]
  font q hq := by
    cases hq
    exact ⟨hopened, hsize, hlast⟩

/-- Drawing on a page moves no cursor and sets no other font. -/
theorem HasPen.of_adds {p q : Page} (h : HasPen (.page p) pen) (hq : Page.AddsDrawing p q) :
    HasPen (.page q) pen := by
  obtain ⟨hopened, hsize, hlast⟩ := h.font p rfl
  have hlast' := (Page.lastSize?_of_adds hq).trans hlast
  have hcursor := h.cursor
  obtain ⟨is, -, rfl⟩ := hq
  exact ⟨hcursor, fun r hr => by cases hr; exact ⟨hopened, hsize, hlast'⟩⟩

/-- The font of a page is set, and its canvas is told, even if the canvas refuses the size. -/
theorem setFontSize_of_opened {p : Page} (h : p.opened = true) (size : Float) :
    (p.setFontSize (.float size)).state =
      { p with fontSize := size }.tellAll [.setFont p.fontName size] := by
  show (Page.onDocument { p with fontSize := size } _).state = _
  unfold Page.onDocument
  rw [if_pos h]
  exact Page.state_perform _ _

/-- A plain call leaves a page with the pen that the label expects. -/
theorem hasPen_drawPage {p : Page} (h : HasPen (.page p) pen) (hc : c.IsPlain) :
    HasPen (.page (p.draw c).state) (pen.next c) := by
  obtain ⟨hopened, hsize, hlast⟩ := h.font p rfl
  have hcursor : p.x = pen.x ∧ p.y = pen.y := by simpa [cursor, Json.float] using h.cursor
  cases hc with
  | moveCursor x y => exact hasPen_page rfl rfl hopened hsize hlast
  | setFontSize size =>
    show HasPen (.page (p.setFontSize (.float size)).state) _
    rw [setFontSize_of_opened hopened]
    exact hasPen_page hcursor.1 hcursor.2 hopened rfl (Page.lastSize?_setFont ..)
  | drawText t => exact h.of_adds (p.addsDrawing_drawText _)
  | drawRect x y w height t c => exact h.of_adds (p.addsDrawing_drawRect ..)
  | drawBarcode content f hf => exact h.of_adds (p.addsDrawing_drawBarcode ..)

/-- Likewise a trace. -/
theorem hasPen_drawTrace {t : Trace} (h : HasPen (.trace t) pen) (hc : c.IsPlain) :
    HasPen (.trace (t.draw c).state) (pen.next c) := by
  obtain ⟨line, hline⟩ := Trace.line_of_plain hc
  have hdraw : (t.draw c).state = (t.place c).add line := by
    unfold Trace.draw
    rw [hline]
    rfl
  rw [hdraw]
  refine ⟨?_, fun p hp => by cases hp⟩
  cases hc with
  | moveCursor x y => rfl
  | setFontSize | drawText | drawRect | drawBarcode => exact h.cursor

/-- Likewise a recording, of which only the place of the cursor is asked. -/
theorem hasPen_drawRecording {r : Recording} (h : HasPen (.recording r) pen) (hc : c.IsPlain) :
    HasPen (.recording (r.draw c).state) (pen.next c) := by
  refine ⟨?_, fun p hp => by cases hp⟩
  cases hc with
  | moveCursor x y => rfl
  | setFontSize | drawText | drawRect | drawBarcode => exact h.cursor

/-- A plain call leaves the pen of the surface where it is to be, whether or not it is refused. -/
theorem hasPen_draw (h : s.HasPen pen) (hc : c.IsPlain) : (s.draw c).state.HasPen (pen.next c) := by
  cases s with
  | recording r => exact hasPen_drawRecording h hc
  | trace t => exact hasPen_drawTrace h hc
  | page p => exact hasPen_drawPage h hc

/-- A document is begun with the cursor where it was. -/
theorem hasPen_createDocument {width height : Json} {x y : Float}
    (hcursor : s.cursor = (.float x, .float y))
    (h : (s.draw (.createDocument width height)).fault = none) :
    ∃ size, (s.draw (.createDocument width height)).state.HasPen ⟨x, y, size⟩ := by
  -- a recording and a trace only note the document; a page sets its own font
  cases s with
  | recording r =>
    obtain ⟨w, v, hw, hv⟩ := Recording.toFloat_of_createDocument h
    have hdraw : (r.draw (.createDocument width height)).state =
        { r with width := w, height := v }.add
          (Call.recorded (.createDocument (.float w) (.float v))) := by
      unfold Recording.draw
      rw [Recording.entry_createDocument hw hv]
      simp only [Recording.place, hw, hv]
      rfl
    refine ⟨0.0, ⟨?_, fun p hp => by cases hp⟩⟩
    show Surface.cursor (.recording (r.draw _).state) = _
    rw [hdraw]
    exact hcursor
  | trace t =>
    refine ⟨0.0, ⟨?_, fun p hp => by cases hp⟩⟩
    show Surface.cursor (.trace (Outcome.ofValue (t.place _) _).state) = _
    cases Trace.line (.createDocument width height) with
    | error e => exact hcursor
    | ok line => exact hcursor
  | page p =>
    obtain ⟨w, v, -, -, hpage⟩ := Page.createDocument_of_none h
    refine ⟨p.fontSize, ?_⟩
    show HasPen (.page (p.createDocument width height).state) _
    rw [hpage]
    have hplace : p.x = x ∧ p.y = y := by simpa [cursor, Json.float] using hcursor
    refine hasPen_page hplace.1 hplace.2 rfl rfl ?_
    simp [Page.lastSize?, Page.toList_tellAll]

/-- Plain calls keep the pen that the label expects, up to the first that is refused. -/
theorem hasPen_drawAll (h : s.HasPen pen) (hcs : ∀ c ∈ cs, c.IsPlain) :
    (s.drawAll cs).state.HasPen ((s.reached cs).foldl Pen.next pen) := by
  -- induction on the calls, up to the first that is refused
  induction cs generalizing s pen with
  | nil => exact h
  | cons c cs ih =>
    rw [List.forall_mem_cons] at hcs
    have hc := hasPen_draw h hcs.1
    unfold reached
    rw [drawAll]
    cases hdraw : (s.draw c).fault with
    | some x =>
      rw [Outcome.andThen_of_some hdraw]
      exact hc
    | none =>
      rw [Outcome.andThen_of_none hdraw]
      exact ih hc hcs.2

end Surface

namespace Press

/-- The surface draws where the label says, and in the font size of the label. -/
def Agrees (p : Press) : Prop :=
  p.surface.HasPen p.label.pen

/-- A step that heeds the pen leaves label and surface with the same one. -/
theorem agrees_take {s : Step} {p : Press} (hp : p.Agrees) (hs : Pen.watch.Heeded p.label.pen s)
    (hcalls : ∀ c ∈ s.calls, c.IsPlain) : (p.take s).state.Agrees := by
  have hlabel := (Watch.allowed_take hs p).2
  have hsurface := Surface.hasPen_drawAll hp hcalls
  unfold Agrees
  rw [surface_take, ← (hlabel : _ = (p.take s).state.label.pen)]
  exact hsurface

theorem agrees_dispatch {p : Press} (hp : p.Agrees) (name : Text) (args : List Text) :
    (p.dispatch name args).state.Agrees :=
  agrees_take hp (Pen.heeds_step name args p.label) (Label.regular_step name args p.label).calls

/-- A new label agrees with its surface, if that has its cursor in the corner. -/
theorem agrees_start {resolution : Option Number} {width height : Json} {surface : Surface}
    (hcorner : surface.cursor = (.float 0.0, .float 0.0))
    (hstart : (start resolution width height surface).fault = none) :
    (start resolution width height surface).state.Agrees := by
  have hcalls : (Label.start resolution width height).calls =
      [.createDocument width height, .setFontSize (.float Label.defaultFontSize)] := rfl
  have hlabel := (of_take_none hstart).2
  have hdrawn := hstart
  unfold start at hdrawn
  rw [fault_take, Option.or_eq_none_iff, hcalls, Surface.drawAll] at hdrawn
  unfold Agrees start
  rw [surface_take, hcalls, Surface.drawAll, hlabel]
  -- the usual font is set only after the document was begun
  cases hbegun : (surface.draw (.createDocument width height)).fault with
  | some x =>
    rw [Outcome.andThen_of_some hbegun, hbegun] at hdrawn
    cases hdrawn.1
  | none =>
    obtain ⟨size, hpen⟩ := Surface.hasPen_createDocument hcorner hbegun
    rw [Outcome.andThen_of_none hbegun]
    have hplain := Call.IsPlain.setFontSize Label.defaultFontSize
    have hfont := Surface.hasPen_drawAll hpen (List.forall_mem_singleton.2 hplain)
    rwa [Surface.reached_singleton] at hfont

/-- Label and surface agree on where the next text or barcode is drawn, and a page on its font size.
They do so behind any commands on a new page, whatever came of each of them: whether it went through,
failed by itself, or had a call refused by the surface. -/
theorem agrees_after {resolution : Option Number} {width height : Json} {surface : Surface}
    (hcorner : surface.cursor = (.float 0.0, .float 0.0))
    (hstart : (start resolution width height surface).fault = none) (history : List Command) :
    (after history (start resolution width height surface).state).Agrees := by
  have hfirst := agrees_start hcorner hstart
  generalize (start resolution width height surface).state = p at hfirst ⊢
  induction history generalizing p with
  | nil => exact hfirst
  | cons c cs ih => exact ih _ (agrees_dispatch hfirst c.name c.args)

/-- A barcode whose content has no symbols is refused at the end of its field, which then goes back
neither to the usual font nor to the corner; a font that is too small is no command. -/
theorem agrees_after_refusal :
    let p := (start (some (.int 8)) (.int 100) (.int 50) (Surface.Form.pdf.fresh "")).state
    let history := List.map Command.parse
      ["^FO10,20", "^A0,30,20", "^BCN,100", "^FDé", "^FS", "^A0,1"]
    (start (some (.int 8)) (.int 100) (.int 50) (Surface.Form.pdf.fresh "")).fault = none ∧
      (faults history p).map (·.isSome) = [false, false, false, false, true, true] ∧
      (after history p).label.fontSize.toBits ≠ Label.defaultFontSize.toBits ∧
      (after history p).Agrees := by
  have hstart : (start (some (.int 8)) (.int 100) (.int 50) (Surface.Form.pdf.fresh "")).fault =
      none := by decide
  refine ⟨hstart, by decide, by decide, agrees_after rfl hstart _⟩

end Press

end LabelPress
