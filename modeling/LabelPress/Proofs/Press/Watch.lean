import LabelPress.Proofs.Conversion.Inserted
import LabelPress.Proofs.Press.History

/-!
# Watching the calls

Some demands on a call depend on the calls before it: a box is drawn where the cursor was moved last.
A `Watch` follows the calls with a value that every call changes. What is demanded of a call may depend
on that value, and the label is related to it whenever a step can end.

* `Watch.Heeded`: a step heeds the watch, whichever of its calls is the last one;
* `Watch.allowed_take`: then the calls that reach a surface are allowed, refused ones included;
* `Watch.allowed_calls`: and so are all calls of a history, `Press.calls`, whatever came of each of its
  commands.
-/

namespace LabelPress

namespace Surface

/-- A single call reaches the surface, even if it is refused. -/
theorem reached_singleton (c : Call) (s : Surface) : s.reached [c] = [c] := by
  unfold reached
  split <;> rfl

end Surface

namespace Press

/-- The calls that reach the surface, command by command, each of which is carried out whatever came
of those before. -/
def calls : List Command → Press → List Call
  | [], _ => []
  | c :: cs, p =>
    p.surface.reached (p.label.step c.name c.args).calls ++ calls cs (p.dispatch c.name c.args).state

end Press

/-- A value to follow along calls, what it allows of the next call, and what it says of the label. -/
structure Watch (W : Type) where
  next : W → Call → W
  Allows : W → Call → Prop
  Holds : W → Label → Prop

namespace Watch

variable {W : Type} {k : Watch W} {w : W} {s : Step} {l : Label} {f : Label → Step}

/-! ## Calls -/

/-- Each call is allowed after those before it. -/
def Allowed (k : Watch W) : W → List Call → Prop
  | _, [] => True
  | w, c :: cs => k.Allows w c ∧ k.Allowed (k.next w c) cs

/-- A watch that allows one row of calls and, from where it left off, another one allows both in a
row. -/
theorem Allowed.append {cs ds : List Call} (hcs : k.Allowed w cs)
    (hds : k.Allowed (cs.foldl k.next w) ds) : k.Allowed w (cs ++ ds) := by
  induction cs generalizing w with
  | nil => exact hds
  | cons c cs ih => exact ⟨hcs.1, ih hcs.2 hds⟩

/-- A call in a row is allowed by what the watch has come to know before it. -/
theorem Allowed.of_split {before after : List Call} {c : Call}
    (h : k.Allowed w (before ++ c :: after)) : k.Allows (before.foldl k.next w) c := by
  induction before generalizing w with
  | nil => exact h.1
  | cons b before ih => exact ih h.2

/-! ## Steps -/

/-- The calls among events are allowed, and the label is as the watch says if a call is refused and if
none is. -/
def Along (k : Watch W) : W → List Event → Label → Prop
  | w, [], l => k.Holds w l
  | w, .note _ :: es, l => k.Along w es l
  | w, .call c refused :: es, l =>
    k.Allows w c ∧ k.Holds (k.next w c) refused ∧ k.Along (k.next w c) es l

/-- What holds after some events is all that matters for those that follow. -/
theorem Along.append {es fs : List Event} {m : Label} (hes : k.Along w es l)
    (hfs : ∀ v, k.Holds v l → k.Along v fs m) : k.Along w (es ++ fs) m := by
  induction es generalizing w with
  | nil => exact hfs w hes
  | cons e es ih =>
    cases e with
    | note n => exact ih hes
    | call c refused => exact ⟨hes.1, hes.2.1, ih hes.2.2⟩

/-- The step heeds the watch. -/
def Heeded (k : Watch W) (w : W) (s : Step) : Prop :=
  k.Along w s.events s.label

namespace Heeded

theorem done (h : k.Holds w l) : k.Heeded w (.done l) := h

theorem fail (h : k.Holds w l) (x : Fault) : k.Heeded w (.fail l x) := h

theorem note (h : k.Holds w l) (n : Note) : k.Heeded w (.note n l) := h

theorem call {c : Call} (hc : k.Allows w c) (h : k.Holds (k.next w c) l) :
    k.Heeded w (.call c l) :=
  ⟨hc, h, h⟩

/-- The second step of two is watched from where the first one left off, and only if that did not
fail. -/
theorem andThen (hs : k.Heeded w s)
    (hf : s.fault = none → ∀ v, k.Holds v s.label → k.Heeded v (f s.label)) :
    k.Heeded w (s.andThen f) := by
  cases h : s.fault with
  | some x =>
    rw [Step.andThen_of_some h]
    exact hs
  | none =>
    rw [Step.andThen_of_none h]
    exact Along.append hs (hf h)

theorem withArgument {A : Type} {x : Except ArgumentFault A} {f : A → Step} (h : k.Holds w l)
    (hf : ∀ a, x = .ok a → k.Heeded w (f a)) : k.Heeded w (.withArgument l x f) := by
  cases x with
  | ok a => exact hf a rfl
  | error e => exact fail h _

theorem withValue {A : Type} {x : Except ValueFault A} {f : A → Step} (h : k.Holds w l)
    (hf : ∀ a, x = .ok a → k.Heeded w (f a)) : k.Heeded w (.withValue l x f) := by
  cases x with
  | ok a => exact hf a rfl
  | error e => exact fail h _

end Heeded

/-! ## Presses -/

/-- Of a step that heeds the watch, allowed calls reach the surface, and the label that is left is as
the watch says after them. -/
theorem allowed_take (h : k.Heeded w s) (p : Press) :
    k.Allowed w (p.surface.reached s.calls) ∧
      k.Holds ((p.surface.reached s.calls).foldl k.next w) (p.take s).state.label := by
  obtain ⟨es, l, x⟩ := s
  rw [Press.take_eq]
  -- by induction on the events; a refused call is the last one that reaches the surface
  induction es generalizing w p with
  | nil => exact ⟨trivial, h⟩
  | cons e es ih =>
    cases e with
    | note n =>
      have hnone : (Outcome.noted p n).fault = none := rfl
      rw [Press.play_note, Outcome.andThen_assoc, Outcome.andThen_of_none hnone]
      exact ih p h
    | call c refused =>
      obtain ⟨hc, hrefused, hrest⟩ := h
      have hcalls : Step.calls ⟨.call c refused :: es, l, x⟩ = c :: Step.calls ⟨es, l, x⟩ := rfl
      rw [hcalls]
      unfold Surface.reached
      cases hdraw : (p.surface.draw c).fault with
      | some y =>
        rw [Press.play_refused hdraw, Outcome.map_andThen_of_some hdraw]
        exact ⟨⟨hc, trivial⟩, hrefused⟩
      | none =>
        rw [Press.play_drawn hdraw, Outcome.andThen_assoc, Outcome.map_andThen_of_none hdraw]
        obtain ⟨hallowed, hlabel⟩ := ih { p with surface := (p.surface.draw c).state } hrest
        exact ⟨⟨hc, hallowed⟩, hlabel⟩

/-- If every command heeds the watch, so does a history: its calls are allowed one after another, and
the label afterwards is as the watch says after them. -/
theorem allowed_calls (hstep : ∀ name args w l, k.Holds w l → k.Heeded w (Label.step name args l))
    {p : Press} (hp : k.Holds w p.label) (cs : List Command) :
    k.Allowed w (p.calls cs) ∧ k.Holds ((p.calls cs).foldl k.next w) (p.after cs).label := by
  induction cs generalizing w p with
  | nil => exact ⟨trivial, hp⟩
  | cons c cs ih =>
    obtain ⟨hfirst, hlabel⟩ := allowed_take (hstep c.name c.args w _ hp) p
    obtain ⟨hrest, hlast⟩ := ih hlabel
    unfold Press.calls Press.after
    rw [List.foldl_append]
    exact ⟨hfirst.append hrest, hlast⟩

end Watch

end LabelPress
