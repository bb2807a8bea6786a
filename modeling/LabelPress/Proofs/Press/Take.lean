import LabelPress.Press
import LabelPress.Proofs.Label.Step

/-!
# What a surface sees of a label

A press takes the steps of its commands one by one, and hands over one call at a time. For the
surface this is one row of calls:

* `Press.dispatchAll_eq_take`: carrying out commands is taking one step, `Label.steps`;
* `Press.surface_take` and `Press.fault_take`: taking a step is drawing its calls, and the first
  refusal goes before the fault of the step itself;
* `Press.start_run`: a whole label is one step from a new label on, whether or not its envelope is in
  order.
-/

namespace LabelPress

namespace Outcome

variable {S : Type} {o : Outcome S}

theorem andThen_of_some {x : Fault} (h : o.fault = some x) (f : S → Outcome S) :
    o.andThen f = o := by
  simp only [andThen, h]

theorem andThen_of_none (h : o.fault = none) (f : S → Outcome S) :
    o.andThen f = ⟨(f o.state).state, o.notes ++ (f o.state).notes, (f o.state).fault⟩ := by
  simp only [andThen, h]

/-- Outcomes may be regrouped like the steps they come from. -/
theorem andThen_assoc (o : Outcome S) (f g : S → Outcome S) :
    (o.andThen f).andThen g = o.andThen fun s => (f s).andThen g := by
  cases h : o.fault with
  | some x => rw [andThen_of_some h, andThen_of_some h, andThen_of_some h]
  | none =>
    cases hf : (f o.state).fault with
    | some x =>
      have hboth : (o.andThen f).fault = some x := by rw [andThen_of_none h, hf]
      rw [andThen_of_some hboth, andThen_of_none h, andThen_of_none h, andThen_of_some hf]
    | none =>
      have hboth : (o.andThen f).fault = none := by rw [andThen_of_none h, hf]
      rw [andThen_of_none hboth, andThen_of_none h, andThen_of_none h, andThen_of_none hf,
        List.append_assoc]

theorem fault_andThen (h : o.fault = none) (f : S → Outcome S) :
    (o.andThen f).fault = (f o.state).fault := by
  rw [andThen_of_none h]

/-- If the second of two operations is done, so is the first. -/
theorem of_andThen_none {f : S → Outcome S} (h : (o.andThen f).fault = none) :
    o.fault = none ∧ (f o.state).fault = none ∧ (o.andThen f).state = (f o.state).state := by
  cases ho : o.fault with
  | some x =>
    rw [andThen_of_some ho, ho] at h
    cases h
  | none =>
    rw [andThen_of_none ho] at h ⊢
    exact ⟨rfl, h, rfl⟩

theorem of_withValue_none {A : Type} {s : S} {x : Except ValueFault A} {f : A → Outcome S}
    (h : (withValue s x f).fault = none) : ∃ a, x = .ok a ∧ withValue s x f = f a := by
  cases x with
  | ok a => exact ⟨a, rfl, rfl⟩
  | error e => cases h

variable {T : Type}

theorem map_andThen_of_some {x : Fault} (h : o.fault = some x) (f : S → T) (g : T → Outcome T) :
    (o.map f).andThen g = o.map f :=
  andThen_of_some ((fault_map f o).trans h) g

theorem map_andThen_of_none (h : o.fault = none) (f : S → T) (g : T → Outcome T) :
    (o.map f).andThen g =
      ⟨(g (f o.state)).state, o.notes ++ (g (f o.state)).notes, (g (f o.state)).fault⟩ :=
  andThen_of_none ((fault_map f o).trans h) g

end Outcome

namespace Surface

/-- Draws what calls ask for, up to the first that is refused. -/
def drawAll : List Call → Surface → Outcome Surface
  | [], s => .done s
  | c :: cs, s => (s.draw c).andThen (drawAll cs)

end Surface

namespace Press

/-! ## Events one after another -/

theorem play_note (n : Note) (es : List Event) (p : Press) :
    play (.note n :: es) p = (Outcome.noted p n).andThen (play es) := rfl

/-- The first refusal ends the play. -/
theorem play_refused {c : Call} {p : Press} {x : Fault} (h : (p.surface.draw c).fault = some x)
    (refused : Label) (es : List Event) :
    play (.call c refused :: es) p =
      (p.surface.draw c).map fun s => { label := refused, surface := s } := by
  rw [play]
  simp only [h]

theorem play_drawn {c : Call} {p : Press} (h : (p.surface.draw c).fault = none)
    (refused : Label) (es : List Event) :
    play (.call c refused :: es) p =
      ((p.surface.draw c).map fun s => { p with surface := s }).andThen (play es) := by
  rw [play]
  simp only [h]

/-- Events in a row are played one part after the other. -/
theorem play_append (es fs : List Event) (p : Press) :
    play (es ++ fs) p = (play es p).andThen (play fs) := by
  induction es generalizing p with
  | nil => exact (Outcome.andThen_done p _).symm
  | cons e es ih =>
    have hrest : play (es ++ fs) = fun q => (play es q).andThen (play fs) := funext ih
    cases e with
    | note n => rw [List.cons_append, play_note, play_note, Outcome.andThen_assoc, hrest]
    | call c refused =>
      rw [List.cons_append]
      cases h : (p.surface.draw c).fault with
      | some x =>
        rw [play_refused h, play_refused h, Outcome.map_andThen_of_some h]
      | none => rw [play_drawn h, play_drawn h, Outcome.andThen_assoc, hrest]

/-- A press with another label. -/
def relabel (l : Label) (x : Option Fault) (p : Press) : Outcome Press :=
  { state := { p with label := l }, fault := x }

theorem take_eq (s : Step) (p : Press) :
    take s p = (play s.events p).andThen (relabel s.label s.fault) := rfl

/-- The label before events does not matter if there is another one after them. -/
theorem play_relabel (es : List Event) (p : Press) (l m : Label) (x : Option Fault) :
    (play es { p with label := m }).andThen (relabel l x) = (play es p).andThen (relabel l x) := by
  -- by induction on the events: only a refusal leaves a label, and it brings its own
  induction es generalizing p with
  | nil => rfl
  | cons e es ih =>
    cases e with
    | note n =>
      have hnone (q : Press) : (Outcome.noted q n).fault = none := rfl
      rw [play_note, play_note, Outcome.andThen_assoc, Outcome.andThen_assoc,
        Outcome.andThen_of_none (hnone _), Outcome.andThen_of_none (hnone _)]
      simp only [Outcome.noted, ih p]
    | call c refused =>
      cases h : (p.surface.draw c).fault with
      | some y => rw [play_refused h, play_refused (p := { p with label := m }) h]
      | none =>
        have hnext := ih { p with surface := (p.surface.draw c).state }
        rw [play_drawn h, play_drawn (p := { p with label := m }) h, Outcome.andThen_assoc,
          Outcome.andThen_assoc, Outcome.map_andThen_of_none h, Outcome.map_andThen_of_none h]
        simp only at hnext ⊢
        rw [hnext]

/-- Taking two steps together is taking one after the other. -/
theorem take_andThen (s : Step) (f : Label → Step) (p : Press) :
    take (s.andThen f) p = (take s p).andThen fun q => take (f q.label) q := by
  cases h : s.fault with
  | some x =>
    -- the first step stops, at its own fault or at a refusal before it
    have hfault : ∃ y, (take s p).fault = some y := by
      rw [take_eq]
      cases hplay : (play s.events p).fault with
      | some y => exact ⟨y, by rw [Outcome.andThen_of_some hplay, hplay]⟩
      | none => exact ⟨x, by rw [Outcome.andThen_of_none hplay, relabel, h]⟩
    obtain ⟨y, hy⟩ := hfault
    rw [Step.andThen_of_some h, Outcome.andThen_of_some hy]
  | none =>
    rw [Step.andThen_of_none h, take_eq, take_eq, play_append, Outcome.andThen_assoc,
      Outcome.andThen_assoc]
    congr 1
    funext q
    have hset : (relabel s.label s.fault q).fault = none := h
    rw [Outcome.andThen_of_none hset]
    exact (play_relabel _ q _ s.label _).symm

/-- Carrying out commands is taking the step that they are together. -/
theorem dispatchAll_eq_take (cs : List Command) (p : Press) :
    dispatchAll cs p = take (p.label.steps cs) p := by
  induction cs generalizing p with
  | nil => rfl
  | cons c cs ih =>
    have hrest : dispatchAll cs = fun q => take (q.label.steps cs) q := funext ih
    rw [dispatchAll, Label.steps, take_andThen, hrest]
    rfl

/-! ## The surface -/

/-- What playing a step does to the surface is what its calls do to it. -/
theorem play_surface (es : List Event) (l : Label) (x : Option Fault) (p : Press) :
    (play es p).state.surface = (p.surface.drawAll (Step.calls ⟨es, l, x⟩)).state ∧
      (play es p).fault = (p.surface.drawAll (Step.calls ⟨es, l, x⟩)).fault := by
  -- induction on the events, of which notes do nothing to the surface
  induction es generalizing p with
  | nil => exact ⟨rfl, rfl⟩
  | cons e es ih =>
    cases e with
    | note n =>
      have hnone : (Outcome.noted p n).fault = none := rfl
      rw [play_note, Outcome.andThen_of_none hnone]
      exact ih p
    | call c refused =>
      have hcalls : Step.calls ⟨.call c refused :: es, l, x⟩ = c :: Step.calls ⟨es, l, x⟩ := rfl
      rw [hcalls, Surface.drawAll]
      cases h : (p.surface.draw c).fault with
      | some y =>
        rw [play_refused h, Outcome.andThen_of_some h]
        exact ⟨rfl, rfl⟩
      | none =>
        rw [play_drawn h, Outcome.andThen_of_none h, Outcome.map_andThen_of_none h]
        exact ih _

/-- What a step draws is what its calls draw. -/
theorem surface_take (s : Step) (p : Press) :
    (take s p).state.surface = (p.surface.drawAll s.calls).state := by
  obtain ⟨hsurface, hfault⟩ := play_surface s.events s.label s.fault p
  rw [take_eq, ← hsurface]
  cases h : (play s.events p).fault with
  | some x => rw [Outcome.andThen_of_some h]
  | none => rw [Outcome.andThen_of_none h, relabel]

/-- A refusal by the surface goes before the fault of the step. -/
theorem fault_take (s : Step) (p : Press) :
    (take s p).fault = (p.surface.drawAll s.calls).fault.or s.fault := by
  obtain ⟨hsurface, hfault⟩ := play_surface s.events s.label s.fault p
  rw [take_eq, ← hfault]
  cases h : (play s.events p).fault with
  | some x => rw [Outcome.andThen_of_some h, h, Option.some_or]
  | none => rw [Outcome.andThen_of_none h, relabel, Option.none_or]

end Press

/-! ## Whole labels -/

namespace Label

/-- What the commands of a whole label do, if its envelope is in order. -/
def enveloped (commands : List Command) (l : Label) : Step :=
  match interior commands with
  | .error fault => .fail l (.envelope fault)
  | .ok inner => steps inner l

/-- A label with a proper envelope is what stands inside. -/
theorem enveloped_of_interior {commands inner : List Command} (h : interior commands = .ok inner) :
    enveloped commands = steps inner := by
  funext l
  unfold enveloped
  rw [h]

end Label

namespace Press

/-- Carrying out a label is taking one step, also if its envelope is not in order. -/
theorem run_eq_take (commands : List Command) (p : Press) :
    run commands p = take (p.label.enveloped commands) p := by
  unfold run Label.enveloped
  cases Label.interior commands with
  | error fault => rfl
  | ok inner => exact dispatchAll_eq_take inner p

/-- A new label on a page of a size, and then the commands of a whole label. -/
def converted (resolution : Option Number) (width height : Json) (commands : List Command) : Step :=
  (Label.start resolution width height).andThen (Label.enveloped commands)

/-- All that a press does for a label is one step. -/
theorem start_run (resolution : Option Number) (width height : Json) (commands : List Command)
    (surface : Surface) :
    (start resolution width height surface).andThen (run commands) =
      take (converted resolution width height commands) { label := { resolution }, surface } := by
  have hrun : run commands = fun q => take (q.label.enveloped commands) q :=
    funext (run_eq_take commands)
  rw [start, hrun, converted, take_andThen]

/-- A new label on a page of a size, and then commands. -/
def whole (resolution : Option Number) (width height : Json) (inner : List Command) : Step :=
  (Label.start resolution width height).andThen (Label.steps inner)

/-- The step of a label whose envelope is in order. -/
theorem run_start {commands inner : List Command} (h : Label.interior commands = .ok inner)
    (resolution : Option Number) (width height : Json) (surface : Surface) :
    (start resolution width height surface).andThen (run commands) =
      take (whole resolution width height inner) { label := { resolution }, surface } := by
  rw [start_run, converted, Label.enveloped_of_interior h, whole]

end Press

end LabelPress
