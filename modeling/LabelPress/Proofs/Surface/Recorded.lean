import LabelPress.Proofs.Label.Verbs
import LabelPress.Proofs.Press.Take

/-!
# What a recording holds

A recording writes down every plain call as it is (`Call.recorded`), and the page size as
floating-point numbers. So a label that goes through leaves one entry for each of its calls, in
order: `Recording.of_run`.
-/

namespace LabelPress

namespace Call

/-- The primitive of a call. -/
def primitive : Call → Primitive
  | .createDocument .. => .createDocument
  | .moveCursor .. => .moveCursor
  | .setFontSize _ => .setFontSize
  | .drawText _ => .drawText
  | .drawRect .. => .drawRect
  | .drawBarcode .. => .drawBarcode

/-- The arguments of a call as values, in order. -/
def values : Call → List Json
  | .createDocument w h => [w, h]
  | .moveCursor x y => [x, y]
  | .setFontSize n => [n]
  | .drawText t => [t.toJson]
  | .drawRect x y w h t ink => [x, y, w, h, t, ink.toJson]
  | .drawBarcode content style => [content.toJson, style.toJson]

/-- The entry that says what the call says. -/
def recorded (c : Call) : Entry :=
  .ofPrimitive c.primitive c.values

end Call

namespace Recording

theorem entry_createDocument {width height : Json} {x y : Float} (hx : width.toFloat = .ok x)
    (hy : height.toFloat = .ok y) :
    entry (.createDocument width height) =
      .ok (Call.recorded (.createDocument (.float x) (.float y))) := by
  unfold entry
  simp only [hx, hy]
  rfl

/-- A recording after others: it has the same origin and more entries. -/
structure Extends (r s : Recording) (entries : List Entry) : Prop where
  version : s.version = r.version
  source : s.source = r.source
  entries : s.entries.toList = r.entries.toList ++ entries

theorem Extends.trans {r s t : Recording} {es fs : List Entry} (h : Extends r s es)
    (hs : Extends s t fs) : Extends r t (es ++ fs) where
  version := hs.version.trans h.version
  source := hs.source.trans h.source
  entries := by rw [hs.entries, h.entries, List.append_assoc]

/-- Where a call leaves the cursor and the page size is no part of the recording. -/
theorem place_extends {c : Call} {r s : Recording} (h : place c r = .ok s) : Extends r s [] := by
  have hnothing : Extends r r [] := ⟨rfl, rfl, (List.append_nil _).symm⟩
  cases c with
  | createDocument | moveCursor =>
    obtain ⟨x, -, h⟩ := Except.bind_eq_ok.1 h
    obtain ⟨y, -, h⟩ := Except.bind_eq_ok.1 h
    cases h
    exact ⟨rfl, rfl, (List.append_nil _).symm⟩
  | setFontSize | drawText | drawRect | drawBarcode =>
    cases h
    exact hnothing

/-- A call that is not refused adds its entry. -/
theorem draw_eq_done {c : Call} {r : Recording}
    (h : (Surface.draw c (.recording r)).fault = none) :
    ∃ e s, entry c = .ok e ∧ Surface.draw c (.recording r) = .done (.recording s) ∧
      Extends r s [e] := by
  simp only [Surface.draw, Recording.draw, Outcome.ofValue, Outcome.withValue, Outcome.map] at h ⊢
  split at h
  · next s hs =>
    obtain ⟨e, he, hrest⟩ := Except.bind_eq_ok.1 hs
    obtain ⟨t, ht, hadd⟩ := Except.bind_eq_ok.1 hrest
    cases hadd
    have hadded : Extends t (t.add e) [e] := ⟨rfl, rfl, toList_entries_add t e⟩
    exact ⟨e, t.add e, he, rfl, (place_extends ht).trans hadded⟩
  · cases h

theorem draw_plain {c : Call} (h : c.IsPlain) (r : Recording) :
    ∃ s, Surface.draw c (.recording r) = .done (.recording s) ∧ Extends r s [c.recorded] := by
  cases h with
  | moveCursor x y =>
    exact ⟨{ r with x, y, entries := r.entries.push _ }, rfl, rfl, rfl, Array.toList_push⟩
  | setFontSize | drawText | drawRect | drawBarcode =>
    exact ⟨r.add _, rfl, rfl, rfl, Array.toList_push⟩

/-- Calls that are recorded whatever stands before them are all recorded. -/
theorem drawAll_of_draw {cs : List Call}
    (h : ∀ c ∈ cs, ∀ r, ∃ s, Surface.draw c (.recording r) = .done (.recording s) ∧
      Extends r s [c.recorded]) (r : Recording) :
    ∃ s, Surface.drawAll cs (.recording r) = .done (.recording s) ∧
      Extends r s (cs.map Call.recorded) := by
  induction cs generalizing r with
  | nil => exact ⟨r, rfl, rfl, rfl, (List.append_nil _).symm⟩
  | cons c cs ih =>
    obtain ⟨s, hdraw, hs⟩ := h c List.mem_cons_self r
    obtain ⟨t, hrest, ht⟩ := ih (fun d hd => h d (List.mem_cons_of_mem c hd)) s
    refine ⟨t, ?_, hs.trans ht⟩
    rw [Surface.drawAll, hdraw, Outcome.andThen_done, hrest]

/-- Plain calls are all recorded. -/
theorem drawAll_plain {cs : List Call} (h : ∀ c ∈ cs, c.IsPlain) (r : Recording) :
    ∃ s, Surface.drawAll cs (.recording r) = .done (.recording s) ∧
      Extends r s (cs.map Call.recorded) :=
  drawAll_of_draw (fun c hc => draw_plain (h c hc)) r

/-- The page size is recorded if it can be read. -/
theorem draw_createDocument {width height : Json} {x y : Float} (hx : width.toFloat = .ok x)
    (hy : height.toFloat = .ok y) (r : Recording) :
    ∃ s, Surface.draw (.createDocument width height) (.recording r) = .done (.recording s) ∧
      Extends r s [Call.recorded (.createDocument (.float x) (.float y))] := by
  refine ⟨{ r with width := x, height := y, entries := r.entries.push _ }, ?_, rfl, rfl,
    Array.toList_push⟩
  simp only [Surface.draw, Recording.draw, entry_createDocument hx hy, place, hx, hy]
  rfl

/-- A page size that is recorded can be read. -/
theorem toFloat_of_createDocument {width height : Json} {r : Recording}
    (h : (Surface.draw (.createDocument width height) (.recording r)).fault = none) :
    ∃ x y, width.toFloat = .ok x ∧ height.toFloat = .ok y := by
  obtain ⟨_, _, he, -⟩ := draw_eq_done h
  obtain ⟨x, hx, hrest⟩ := Except.bind_eq_ok.1 he
  obtain ⟨y, hy, -⟩ := Except.bind_eq_ok.1 hrest
  exact ⟨x, y, hx, hy⟩

end Recording

namespace Label

/-- The label with which every run begins. -/
def first (resolution : Option Number) : Label := { resolution }

end Label

namespace Press

theorem calls_whole (resolution : Option Number) (width height : Json) (inner : List Command) :
    (whole resolution width height inner).calls =
      .createDocument width height :: .setFontSize (.float Label.defaultFontSize) ::
        ((Label.first resolution).steps inner).calls := rfl

theorem fault_whole (resolution : Option Number) (width height : Json) (inner : List Command) :
    (whole resolution width height inner).fault =
      ((Label.first resolution).steps inner).fault := rfl

/-- All calls but the first are plain. -/
theorem isPlain_inside (resolution : Option Number) (inner : List Command) :
    ∀ c ∈ .setFontSize (.float Label.defaultFontSize) ::
      ((Label.first resolution).steps inner).calls, Call.IsPlain c :=
  List.forall_mem_cons.2 ⟨.setFontSize _, (Label.regular_steps inner _).calls⟩

end Press

namespace Recording

/-- A label that goes through leaves an entry for each of its calls. -/
theorem of_run {resolution : Option Number} {width height : Json} {commands : List Command}
    {r : Recording}
    (h : ((Press.start resolution width height (.recording r)).andThen
      (Press.run commands)).fault = none) :
    ∃ inner x y s, Label.interior commands = .ok inner ∧ width.toFloat = .ok x ∧
      height.toFloat = .ok y ∧ ((Label.first resolution).steps inner).fault = none ∧
      ((Press.start resolution width height (.recording r)).andThen
        (Press.run commands)).state.surface = .recording s ∧
      Extends r s ((.createDocument (.float x) (.float y) ::
        .setFontSize (.float Label.defaultFontSize) ::
          ((Label.first resolution).steps inner).calls).map Call.recorded) := by
  cases hinner : Label.interior commands with
  | error fault =>
    -- without an envelope nothing goes through
    have hrun := (Outcome.of_andThen_none h).2.1
    simp only [Press.run, hinner] at hrun
    cases hrun
  | ok inner =>
    rw [Press.run_start hinner, Press.fault_take, Option.or_eq_none_iff, Press.calls_whole,
      Press.fault_whole, Surface.drawAll] at h
    obtain ⟨hdraw, hsteps⟩ := h
    -- the page is begun, as nothing could have been drawn otherwise
    have hfirst := (Outcome.of_andThen_none hdraw).1
    obtain ⟨x, y, hx, hy⟩ := toFloat_of_createDocument hfirst
    obtain ⟨s, hs, hextends⟩ := draw_createDocument hx hy r
    obtain ⟨t, ht, hrest⟩ := drawAll_plain (Press.isPlain_inside _ inner) s
    refine ⟨inner, x, y, t, rfl, hx, hy, hsteps, ?_, hextends.trans hrest⟩
    rw [Press.run_start hinner, Press.surface_take, Press.calls_whole, Surface.drawAll, hs,
      Outcome.andThen_done, ht]
    rfl

end Recording

end LabelPress
