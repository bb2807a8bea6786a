import LabelPress.Proofs.Conversion.Inserted
import LabelPress.Proofs.Surface.Recorded
import LabelPress.Proofs.Surface.Traced

/-!
# Surfaces that write down calls

A recording and a trace write down every call that they take, and do nothing else with it. So what
they hold afterwards is what was taken (`Surface.took_drawAll`). They refuse a call only for a value of
the wrong kind or size: none of the plain calls that labels make (`Surface.drawAll_isPlain`), and the
page only if its sides are no floating-point numbers (`Surface.draw_createDocument_iff`).
-/

namespace LabelPress

/-- What depends on a value is refused only for the value. -/
theorem Outcome.fault_ofValue {S : Type} (s : S) (x : Except ValueFault S) :
    (∃ v, (ofValue s x).fault = some (.value v)) ∨ (ofValue s x).fault = none := by
  cases x with
  | ok a => exact .inr rfl
  | error v => exact .inl ⟨v, rfl⟩

namespace Surface

/-- A surface that writes down the calls that it takes. -/
def IsWritten : Surface → Prop
  | .recording _ | .trace _ => True
  | .page _ => False

/-- The surface has taken these calls: it holds an entry or a line for each of them, in order, behind
what it held before. -/
inductive Took (cs : List Call) : Surface → Surface → Prop where
  | recording {r s : Recording} {entries : List Entry}
    (h : List.Forall₂ (fun c e => Recording.entry c = .ok e) cs entries)
    (hs : Recording.Extends r s entries) : Took cs (.recording r) (.recording s)
  | trace {t u : Trace} {lines : List Text} (h : Trace.Lines cs lines)
    (hu : u.lines.toList = t.lines.toList ++ lines) : Took cs (.trace t) (.trace u)

variable {s t u : Surface} {c : Call} {cs ds : List Call}

theorem Took.refl (hs : s.IsWritten) : Took [] s s := by
  cases s with
  | recording r => exact .recording .nil ⟨rfl, rfl, (List.append_nil _).symm⟩
  | trace t => exact .trace .nil (List.append_nil _).symm
  | page p => cases hs

theorem Took.isWritten (h : Took cs s t) : t.IsWritten := by
  cases h with
  | recording => trivial
  | trace => trivial

/-- Calls taken in a row are taken together. -/
theorem Took.trans (h : Took cs s t) (ht : Took ds t u) : Took (cs ++ ds) s u := by
  cases h with
  | recording hentries hextends =>
    cases ht with
    | recording hentries' hextends' =>
      exact .recording (List.rel_append hentries hentries') (hextends.trans hextends')
  | trace hlines hall =>
    cases ht with
    | trace hlines' hall' =>
      exact .trace (List.rel_append hlines hlines') (by rw [hall', hall, List.append_assoc])

/-- What is refused is refused for a value. -/
theorem draw_cases (hs : s.IsWritten) (c : Call) :
    (∃ v, (s.draw c).fault = some (.value v)) ∨
      ((s.draw c).fault = none ∧ Took [c] s (s.draw c).state) := by
  -- a recording takes an entry and a trace a line, or the value for it cannot be had
  cases s with
  | page p => cases hs
  | recording r =>
    rcases Outcome.fault_ofValue r _ with hv | hnone
    · exact .inl hv
    · obtain ⟨e, s, he, hdraw, hs⟩ := Recording.draw_eq_done (c := c) (r := r) hnone
      rw [hdraw]
      exact .inr ⟨rfl, .recording (.cons he .nil) hs⟩
  | trace t =>
    cases h : Trace.line c with
    | error v =>
      refine .inl ⟨v, ?_⟩
      show (Outcome.ofValue (t.place c) _).fault = _
      rw [h]
      rfl
    | ok line =>
      rw [Trace.draw_of_ok h]
      refine .inr ⟨rfl, .trace (.cons h .nil) ?_⟩
      rw [Trace.toList_lines_add, Trace.lines_place]

theorem drawAll_append (cs ds : List Call) (s : Surface) :
    s.drawAll (cs ++ ds) = (s.drawAll cs).andThen (drawAll ds) := by
  induction cs generalizing s with
  | nil => exact (Outcome.andThen_done s _).symm
  | cons c cs ih =>
    have hrest : drawAll (cs ++ ds) = fun t => (drawAll cs t).andThen (drawAll ds) := funext ih
    rw [List.cons_append, drawAll, drawAll, Outcome.andThen_assoc, hrest]

/-- If nothing is refused, all calls reach the surface, and it has taken them. -/
theorem took_drawAll (hs : s.IsWritten) (h : (s.drawAll cs).fault = none) :
    s.reached cs = cs ∧ Took cs s (s.drawAll cs).state := by
  induction cs generalizing s with
  | nil => exact ⟨rfl, .refl hs⟩
  | cons c cs ih =>
    rw [drawAll] at h ⊢
    rcases draw_cases hs c with ⟨v, hv⟩ | ⟨hnone, htook⟩
    · rw [Outcome.andThen_of_some hv, hv] at h
      cases h
    · rw [Outcome.andThen_of_none hnone] at h ⊢
      obtain ⟨hreached, hrest⟩ := ih htook.isWritten h
      refine ⟨?_, htook.trans hrest⟩
      unfold reached
      simp only [hnone, hreached]

/-- A written surface refuses nothing but values. -/
theorem drawAll_fault (hs : s.IsWritten) {x : Fault} (h : (s.drawAll cs).fault = some x) :
    ∃ v, x = .value v := by
  induction cs generalizing s with
  | nil => cases h
  | cons c cs ih =>
    rw [drawAll] at h
    rcases draw_cases hs c with ⟨v, hv⟩ | ⟨hnone, htook⟩
    · rw [Outcome.andThen_of_some hv, hv] at h
      cases h
      exact ⟨v, rfl⟩
    · rw [Outcome.fault_andThen hnone] at h
      exact ih htook.isWritten h

/-- Plain calls are not refused. -/
theorem drawAll_isPlain (hs : s.IsWritten) (h : ∀ c ∈ cs, c.IsPlain) :
    (s.drawAll cs).fault = none := by
  cases s with
  | page p => cases hs
  | recording r =>
    obtain ⟨_, hdraw, -⟩ := Recording.drawAll_plain h r
    rw [hdraw]
    rfl
  | trace t =>
    obtain ⟨_, hlines⟩ := Trace.lines_of_plain h
    obtain ⟨_, hdraw, -⟩ := Trace.drawAll_of_lines hlines t
    rw [hdraw]
    rfl

/-- A page is begun if its sides are floating-point numbers. -/
theorem draw_createDocument_iff (hs : s.IsWritten) (width height : Number) :
    (s.draw (.createDocument (.number width) (.number height))).fault = none ↔
      ∃ x y, width.toFloat = .ok x ∧ height.toFloat = .ok y := by
  -- both written surfaces ask for the two sides as numbers, and for nothing else
  cases s with
  | page p => cases hs
  | recording r =>
    refine ⟨Recording.toFloat_of_createDocument, ?_⟩
    rintro ⟨x, y, hx, hy⟩
    have hwidth : (Json.number width).toFloat = .ok x := hx
    have hheight : (Json.number height).toFloat = .ok y := hy
    obtain ⟨_, hdraw, -⟩ := Recording.draw_createDocument hwidth hheight r
    rw [hdraw]
    rfl
  | trace t =>
    constructor
    · intro h
      rcases hline : Trace.line (.createDocument (.number width) (.number height)) with v | line
      · change (Outcome.ofValue (t.place _) _).fault = none at h
        rw [hline] at h
        cases h
      · obtain ⟨w, hw, hline⟩ := Except.bind_eq_ok.1 hline
        obtain ⟨v, hv, -⟩ := Except.bind_eq_ok.1 hline
        obtain ⟨_, hw, -⟩ := Except.map_eq_ok hw
        obtain ⟨_, hv, -⟩ := Except.map_eq_ok hv
        obtain ⟨x, hx, -⟩ := Except.map_eq_ok hw
        obtain ⟨y, hy, -⟩ := Except.map_eq_ok hv
        exact ⟨x, y, hx, hy⟩
    · rintro ⟨x, y, hx, hy⟩
      obtain ⟨_, hline, -⟩ := Trace.line_createDocument hx hy
      rw [Trace.draw_of_ok hline]
      rfl

/-- Finishing the drawing fails only for a text that is no string. -/
theorem finish_error (hs : s.IsWritten) {x : Fault} (h : s.finish.2 = .error x) :
    x = .unencodable := by
  cases s with
  | page p => cases hs
  | recording r => cases h
  | trace t =>
    change Document.text <$> t.render = _ at h
    unfold Trace.render at h
    split at h <;> cases h
    rfl

end Surface

end LabelPress
