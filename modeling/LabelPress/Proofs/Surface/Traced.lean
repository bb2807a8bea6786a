import LabelPress.Proofs.Label.Verbs
import LabelPress.Proofs.Press.Take
import LabelPress.Proofs.Text.Whole
import Mathlib.Data.List.Forall2

/-!
# What a trace holds

A trace has a line for every plain call (`Trace.line_of_plain`), so it refuses none, and what it
holds in the end are these lines (`Trace.drawAll_of_lines`). If the texts of the calls are whole, so
are the lines, and then the trace is a string (`Trace.render_of_whole`).
-/

namespace LabelPress

/-- The texts that a call shows are whole. -/
def Call.IsWhole : Call → Prop
  | .drawText text => text.plain.IsWhole
  | .drawBarcode content style =>
    content.plain.IsWhole ∧
      ∀ f, style = .formatting f → f.symbology.plain.IsWhole ∧ f.orientation.plain.IsWhole
  | _ => True

namespace Trace

/-! ## Lines -/

/-- Every plain call has a line. -/
theorem line_of_plain {c : Call} (h : c.IsPlain) : ∃ line, Trace.line c = .ok line := by
  cases h with
  | moveCursor | setFontSize | drawText | drawRect => exact ⟨_, rfl⟩
  | drawBarcode content f hf =>
    unfold Trace.line
    simp only [hf]
    exact ⟨_, rfl⟩

/-- A number as a page size has the line of the floating-point number that it is. -/
theorem line_createDocument {w h : Number} {x y : Float} (hx : w.toFloat = .ok x)
    (hy : h.toFloat = .ok y) :
    ∃ line, Trace.line (.createDocument (.number w) (.number h)) = .ok line ∧
      Trace.line (.createDocument (.float x) (.float y)) = .ok line := by
  refine ⟨_, ?_, rfl⟩
  unfold Trace.line Trace.length Json.fixed
  simp only [Json.number?, hx, hy]
  rfl

theorem isWhole_length {x : Json} {t : Text} (h : Trace.length x = .ok t) : t.IsWhole := by
  obtain ⟨cs, -, rfl⟩ := Except.map_eq_ok h
  exact Text.isWhole_ofChars cs

/-- The line of a call shows the texts of the call, and numbers. -/
theorem isWhole_line {c : Call} {line : Text} (hc : c.IsWhole) (h : Trace.line c = .ok line) :
    line.IsWhole := by
  -- call by call: a line is made of lengths, which are whole, and of the texts of the call
  cases c with
  | createDocument width height =>
    obtain ⟨w, hw, h⟩ := Except.bind_eq_ok.1 h
    obtain ⟨t, ht, h⟩ := Except.bind_eq_ok.1 h
    cases h
    simp [isWhole_length hw, isWhole_length ht]
  | moveCursor x y =>
    obtain ⟨a, ha, h⟩ := Except.bind_eq_ok.1 h
    obtain ⟨b, hb, h⟩ := Except.bind_eq_ok.1 h
    cases h
    simp [isWhole_length ha, isWhole_length hb]
  | setFontSize points =>
    obtain ⟨n, -, h⟩ := Except.bind_eq_ok.1 h
    cases h
    simp
  | drawText text =>
    cases h
    exact (Text.isWhole_ofString _).append hc
  | drawRect x y width height thickness ink =>
    obtain ⟨a, ha, h⟩ := Except.bind_eq_ok.1 h
    obtain ⟨b, hb, h⟩ := Except.bind_eq_ok.1 h
    obtain ⟨w, hw, h⟩ := Except.bind_eq_ok.1 h
    obtain ⟨t, ht, h⟩ := Except.bind_eq_ok.1 h
    obtain ⟨u, hu, h⟩ := Except.bind_eq_ok.1 h
    obtain ⟨code, hcode, h⟩ := Except.bind_eq_ok.1 h
    cases h
    have hwhole : code.IsWhole := by
      cases ink with
      | value | formatting => cases hcode
      | colour =>
        cases hcode
        exact Text.isWhole_ofString _
    simp [isWhole_length ha, isWhole_length hb, isWhole_length hw, isWhole_length ht,
      isWhole_length hu, hwhole]
  | drawBarcode content style =>
    cases style with
    | value | colour => cases h
    | formatting f =>
      obtain ⟨t, ht, h⟩ := Except.bind_eq_ok.1 h
      cases h
      obtain ⟨hcontent, hstyle⟩ := hc
      obtain ⟨hsymbology, horientation⟩ := hstyle f rfl
      simp [isWhole_length ht, hcontent, hsymbology, horientation]

/-! ## Calls one after another -/

theorem draw_of_ok {c : Call} {line : Text} (h : Trace.line c = .ok line) (t : Trace) :
    Surface.draw c (.trace t) = .done (.trace ((t.place c).add line)) := by
  change (t.draw c).map Surface.trace = _
  unfold draw
  rw [h]
  rfl

theorem lines_place (c : Call) (t : Trace) : (t.place c).lines = t.lines := by
  cases c <;> rfl

/-- These are the lines of the calls. -/
abbrev Lines : List Call → List Text → Prop :=
  List.Forall₂ fun c line => Trace.line c = .ok line

theorem lines_of_plain {cs : List Call} (h : ∀ c ∈ cs, c.IsPlain) : ∃ lines, Lines cs lines := by
  induction cs with
  | nil => exact ⟨[], .nil⟩
  | cons c cs ih =>
    obtain ⟨line, hline⟩ := line_of_plain (h c List.mem_cons_self)
    obtain ⟨lines, hlines⟩ := ih fun d hd => h d (List.mem_cons_of_mem c hd)
    exact ⟨line :: lines, .cons hline hlines⟩

/-- Calls that have lines are all drawn, and leave their lines. -/
theorem drawAll_of_lines {cs : List Call} {lines : List Text} (h : Lines cs lines) (t : Trace) :
    ∃ u, Surface.drawAll cs (.trace t) = .done (.trace u) ∧
      u.lines.toList = t.lines.toList ++ lines := by
  induction h generalizing t with
  | nil => exact ⟨t, rfl, (List.append_nil _).symm⟩
  | @cons c line cs lines hline _ ih =>
    obtain ⟨u, hdraw, hu⟩ := ih ((t.place c).add line)
    refine ⟨u, ?_, ?_⟩
    · rw [Surface.drawAll, draw_of_ok hline, Outcome.andThen_done, hdraw]
    · rw [hu, toList_lines_add, lines_place, List.append_assoc, List.singleton_append]

theorem isWhole_of_lines {cs : List Call} {lines : List Text} (h : Lines cs lines)
    (hcs : ∀ c ∈ cs, c.IsWhole) : ∀ line ∈ lines, line.IsWhole := by
  induction h with
  | nil => simp
  | cons hline _ ih =>
    obtain ⟨hc, hrest⟩ := List.forall_mem_cons.1 hcs
    exact List.forall_mem_cons.2 ⟨isWhole_line hc hline, ih hrest⟩

/-! ## Documents -/

/-- The document of a trace depends on its lines only. -/
theorem render_of_lines {t u : Trace} (h : t.lines = u.lines) : t.render = u.render := by
  unfold render text
  rw [h]

/-- Whole lines are a string. -/
theorem render_of_whole {t : Trace} (h : ∀ line ∈ t.lines.toList, line.IsWhole) :
    ∃ s, t.render = .ok s := by
  have hbreak : (Text.ofString "\n").IsWhole := Text.isWhole_ofString _
  have htext : t.text.IsWhole := ((Text.isWhole_intercalate hbreak).2 h).append hbreak
  obtain ⟨s, hs⟩ := htext.string?
  refine ⟨s, ?_⟩
  unfold render
  rw [hs]

end Trace

end LabelPress
