import LabelPress.Proofs.Surface.Recorded

/-!
# Histories

A press goes on after a command that has failed, with the label as the failure left it. So a
history is any row of commands, whatever came of each of them, and the labels that matter are all
those in which a step may end:

* `Step.Everywhere`: a property of all labels that a step may leave, whether it goes through, stops
  by itself, or has a call refused halfway;
* `Press.label_after`: what every step keeps everywhere, a history keeps;
* `Press.after_recording`: on a recording, a history depends on the label with which it begins, and
  on nothing else.
-/

namespace LabelPress

namespace Step

/-- A property of the last label of a step, and of the labels that refused calls leave. -/
structure Everywhere (I : Label → Prop) (s : Step) : Prop where
  label : I s.label
  refused : ∀ c l, Event.call c l ∈ s.events → I l

namespace Everywhere

variable {I : Label → Prop} {s : Step} {l : Label} {f : Label → Step}

theorem done (h : I l) : Everywhere I (done l) :=
  ⟨h, fun _ _ hc => by cases hc⟩

theorem fail (h : I l) (x : Fault) : Everywhere I (fail l x) :=
  ⟨h, fun _ _ hc => by cases hc⟩

theorem note (h : I l) (n : Note) : Everywhere I (note n l) := by
  refine ⟨h, fun c m hc => ?_⟩
  rw [Step.note, List.mem_singleton] at hc
  cases hc

theorem call (h : I l) (c : Call) : Everywhere I (call c l) := by
  refine ⟨h, fun d m hd => ?_⟩
  rw [Step.call, List.mem_singleton] at hd
  cases hd
  exact h

/-- What follows is looked at only if the first step goes through. -/
theorem andThen (hs : Everywhere I s) (hf : s.fault = none → Everywhere I (f s.label)) :
    Everywhere I (s.andThen f) := by
  cases h : s.fault with
  | some x =>
    rw [andThen_of_some h]
    exact hs
  | none =>
    have ht := hf h
    rw [andThen_of_none h]
    refine ⟨ht.label, fun c l hc => ?_⟩
    rcases List.mem_append.1 hc with hc | hc
    · exact hs.refused c l hc
    · exact ht.refused c l hc

theorem withArgument {A : Type} {x : Except ArgumentFault A} {f : A → Step} (h : I l)
    (hf : ∀ a, x = .ok a → Everywhere I (f a)) : Everywhere I (withArgument l x f) := by
  cases x with
  | ok a => exact hf a rfl
  | error e => exact fail h _

theorem withValue {A : Type} {x : Except ValueFault A} {f : A → Step} (h : I l)
    (hf : ∀ a, x = .ok a → Everywhere I (f a)) : Everywhere I (withValue l x f) := by
  cases x with
  | ok a => exact hf a rfl
  | error e => exact fail h _

end Everywhere

end Step

namespace Press

/-! ## One command -/

/-- A play that is refused leaves the label of the refused call. -/
theorem label_play_of_some {es : List Event} {p : Press} {x : Fault}
    (h : (play es p).fault = some x) : ∃ c, Event.call c (play es p).state.label ∈ es := by
  -- induction on the events: the call that is refused leaves its own label
  induction es generalizing p with
  | nil => cases h
  | cons e es ih =>
    cases e with
    | note n =>
      have hnone : (Outcome.noted p n).fault = none := rfl
      rw [play_note, Outcome.andThen_of_none hnone] at h ⊢
      obtain ⟨c, hc⟩ := ih h
      exact ⟨c, List.mem_cons_of_mem _ hc⟩
    | call c refused =>
      cases hdraw : (p.surface.draw c).fault with
      | some y =>
        rw [play_refused hdraw]
        exact ⟨c, List.mem_cons_self⟩
      | none =>
        rw [play_drawn hdraw, Outcome.map_andThen_of_none hdraw] at h ⊢
        obtain ⟨d, hd⟩ := ih h
        exact ⟨d, List.mem_cons_of_mem _ hd⟩

/-- A step that is taken to its end leaves its last label. -/
theorem label_take_of_play {s : Step} {p : Press} (h : (play s.events p).fault = none) :
    (take s p).state.label = s.label := by
  rw [take_eq, Outcome.andThen_of_none h]
  rfl

/-- A press that took a step without a fault took all of it. -/
theorem of_take_none {s : Step} {p : Press} (h : (take s p).fault = none) :
    s.fault = none ∧ (take s p).state.label = s.label := by
  rw [fault_take, Option.or_eq_none_iff] at h
  have hplay : (play s.events p).fault = none := by
    rw [(play_surface s.events s.label s.fault p).2]
    exact h.1
  exact ⟨h.2, label_take_of_play hplay⟩

/-- Whatever comes of a step, it leaves one of its labels. -/
theorem label_take {I : Label → Prop} {s : Step} (h : s.Everywhere I) (p : Press) :
    I (take s p).state.label := by
  cases hplay : (play s.events p).fault with
  | none =>
    rw [label_take_of_play hplay]
    exact h.label
  | some x =>
    obtain ⟨c, hc⟩ := label_play_of_some hplay
    rw [take_eq, Outcome.andThen_of_some hplay]
    exact h.refused c _ hc

/-! ## Commands whatever comes of them -/

/-- The press after commands, each of which is carried out whatever came of those before. -/
def after : List Command → Press → Press
  | [], p => p
  | c :: cs, p => after cs (p.dispatch c.name c.args).state

/-- The faults of these commands, one by one. -/
def faults : List Command → Press → List (Option Fault)
  | [], _ => []
  | c :: cs, p => (p.dispatch c.name c.args).fault :: faults cs (p.dispatch c.name c.args).state

/-- What every step keeps everywhere is kept by a history. -/
theorem label_after {I : Label → Prop}
    (hstep : ∀ name args l, I l → (Label.step name args l).Everywhere I) {p : Press}
    (hp : I p.label) (cs : List Command) : I (after cs p).label := by
  induction cs generalizing p with
  | nil => exact hp
  | cons c cs ih => exact ih (label_take (hstep c.name c.args _ hp) p)

/-! ## On a recording -/

open Recording (Extends drawAll_plain)

/-- A recording refuses nothing that a label asks for, so the label alone says what comes of a
command. -/
theorem dispatch_recording (c : Command) (l : Label) (r : Recording) :
    ∃ s, (dispatch c.name c.args ⟨l, .recording r⟩).state =
        ⟨(l.step c.name c.args).label, .recording s⟩ ∧
      (dispatch c.name c.args ⟨l, .recording r⟩).fault = (l.step c.name c.args).fault ∧
      Extends r s ((l.step c.name c.args).calls.map Call.recorded) := by
  have hplain := (Label.regular_step c.name c.args l).calls
  obtain ⟨s, hdraw, hs⟩ := drawAll_plain hplain r
  have hfault := fault_take (l.step c.name c.args) ⟨l, .recording r⟩
  have hsurface := surface_take (l.step c.name c.args) ⟨l, .recording r⟩
  have hplay := (play_surface (l.step c.name c.args).events (l.step c.name c.args).label
    (l.step c.name c.args).fault ⟨l, .recording r⟩).2
  rw [hdraw] at hfault hsurface hplay
  refine ⟨s, ?_, hfault, hs⟩
  have hlabel := label_take_of_play hplay
  unfold dispatch
  rw [← hlabel, ← show _ = Surface.recording s from hsurface]

/-- Which recording it is does not matter for a history: the label afterwards, the entries that are
added and the faults are the same on all of them. -/
theorem after_recording (cs : List Command) (l : Label) :
    ∃ m entries xs, ∀ r, ∃ s, after cs ⟨l, .recording r⟩ = ⟨m, .recording s⟩ ∧
      Extends r s entries ∧ faults cs ⟨l, .recording r⟩ = xs := by
  -- induction on the commands; what they do to the label does not depend on the recording
  induction cs generalizing l with
  | nil =>
    refine ⟨l, [], [], fun r => ⟨r, rfl, ⟨rfl, rfl, ?_⟩, rfl⟩⟩
    rw [List.append_nil]
  | cons c cs ih =>
    obtain ⟨m, entries, xs, hrest⟩ := ih (l.step c.name c.args).label
    refine ⟨m, (l.step c.name c.args).calls.map Call.recorded ++ entries,
      (l.step c.name c.args).fault :: xs, fun r => ?_⟩
    obtain ⟨s, hstate, hfault, hs⟩ := dispatch_recording c l r
    obtain ⟨t, hafter, ht, hfaults⟩ := hrest s
    refine ⟨t, ?_, hs.trans ht, ?_⟩
    · rw [after, hstate, hafter]
    · rw [faults, hstate, hfault, hfaults]

end Press

end LabelPress
