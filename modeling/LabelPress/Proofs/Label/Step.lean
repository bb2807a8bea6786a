import LabelPress.Label.Action

/-!
# Steps one after another

The commands of a label are one step, `Label.steps`, which says everything that running them can do
to a surface. What such a step keeps follows from what single commands keep:

* `Step.Keeps`: a step that goes through leaves a label with a property, makes calls of one kind
  only, and stops for faults of one kind only;
* `keeps_steps`: commands that keep an invariant keep it together.
-/

namespace LabelPress

/-! ## Answers one after another -/

/-- A sequence succeeds exactly when both its parts do. -/
theorem Except.bind_eq_ok {E A B : Type} {x : Except E A} {f : A → Except E B} {b : B} :
    (x >>= f) = .ok b ↔ ∃ a, x = .ok a ∧ f a = .ok b := by
  cases x with
  | ok a => exact ⟨fun h => ⟨a, rfl, h⟩, fun ⟨_, ha, h⟩ => by cases ha; exact h⟩
  | error e => exact ⟨fun h => (nomatch h), fun ⟨_, ha, _⟩ => (nomatch ha)⟩

/-- Two answers, one after the other. -/
theorem Except.pair_eq_ok {E A B : Type} {x : Except E A} {y : Except E B} {p : A × B}
    (h : (do return (← x, ← y)) = Except.ok p) : x = .ok p.1 ∧ y = .ok p.2 := by
  obtain ⟨a, ha, h⟩ := Except.bind_eq_ok.1 h
  obtain ⟨b, hb, h⟩ := Except.bind_eq_ok.1 h
  cases h
  exact ⟨ha, hb⟩

/-- An answer that fails for reasons of one kind only. -/
def FailsOnly {E A : Type} (Q : E → Prop) (x : Except E A) : Prop :=
  ∀ e, x = .error e → Q e

namespace FailsOnly

variable {E A B : Type} {Q : E → Prop}

theorem ok (a : A) : FailsOnly Q (.ok a : Except E A) := fun _ h => nomatch h

theorem error {e : E} (h : Q e) : FailsOnly Q (.error e : Except E A) := by
  rintro _ ⟨⟩
  exact h

/-- The faults of a sequence are those of its parts. -/
theorem bind {x : Except E A} {f : A → Except E B} (hx : FailsOnly Q x)
    (hf : ∀ a, FailsOnly Q (f a)) : FailsOnly Q (x >>= f) := by
  cases x with
  | ok a => exact hf a
  | error e => exact error (hx e rfl)

/-- A fold fails only as its step fails. -/
theorem foldlM {f : B → A → Except E B} (hf : ∀ b a, FailsOnly Q (f b a)) (as : List A) (b : B) :
    FailsOnly Q (as.foldlM f b) := by
  induction as generalizing b with
  | nil => exact ok b
  | cons a as ih =>
    rw [List.foldlM_cons]
    exact bind (hf b a) ih

theorem mono {R : E → Prop} {x : Except E A} (hx : FailsOnly Q x) (h : ∀ e, Q e → R e) :
    FailsOnly R x :=
  fun e he => h e (hx e he)

end FailsOnly

namespace Step

variable {s : Step} {f : Label → Step} {l : Label}

@[simp] theorem calls_done (l : Label) : (done l).calls = [] := rfl

@[simp] theorem label_done (l : Label) : (done l).label = l := rfl

@[simp] theorem fault_done (l : Label) : (done l).fault = none := rfl

@[simp] theorem calls_fail (l : Label) (x : Fault) : (fail l x).calls = [] := rfl

@[simp] theorem fault_fail (l : Label) (x : Fault) : (fail l x).fault = some x := rfl

@[simp] theorem calls_note (n : Note) (l : Label) : (note n l).calls = [] := rfl

@[simp] theorem label_note (n : Note) (l : Label) : (note n l).label = l := rfl

@[simp] theorem fault_note (n : Note) (l : Label) : (note n l).fault = none := rfl

@[simp] theorem calls_call (c : Call) (l : Label) : (call c l).calls = [c] := rfl

@[simp] theorem label_call (c : Call) (l : Label) : (call c l).label = l := rfl

@[simp] theorem fault_call (c : Call) (l : Label) : (call c l).fault = none := rfl

/-! ## One after another -/

/-- After a step without a fault the next one starts at the label it left, and the events of both
stand in the order they were told. -/
theorem andThen_of_none (h : s.fault = none) (f : Label → Step) :
    s.andThen f = ⟨s.events ++ (f s.label).events, (f s.label).label, (f s.label).fault⟩ := by
  simp only [andThen, h]

/-- Nothing follows a step that failed. -/
theorem andThen_of_some {x : Fault} (h : s.fault = some x) (f : Label → Step) :
    s.andThen f = s := by
  simp only [andThen, h]

theorem fault_andThen (h : s.fault = none) (f : Label → Step) :
    (s.andThen f).fault = (f s.label).fault := by
  rw [andThen_of_none h]

theorem label_andThen (h : s.fault = none) (f : Label → Step) :
    (s.andThen f).label = (f s.label).label := by
  rw [andThen_of_none h]

/-- Two steps go through if the first does and then the second. -/
theorem fault_andThen_eq_none :
    (s.andThen f).fault = none ↔ s.fault = none ∧ (f s.label).fault = none := by
  cases h : s.fault with
  | none => simp [fault_andThen h]
  | some x => simp [andThen_of_some h, h]

/-- Sequences may be regrouped, so a verb may be read from its first part or from its last. -/
theorem andThen_assoc (s : Step) (f g : Label → Step) :
    (s.andThen f).andThen g = s.andThen fun l => (f l).andThen g := by
  -- the cases are in which of the steps the first fault is
  cases h : s.fault with
  | some x => rw [andThen_of_some h, andThen_of_some h, andThen_of_some h]
  | none =>
    cases hf : (f s.label).fault with
    | some x =>
      have hboth : (s.andThen f).fault = some x := (fault_andThen h f).trans hf
      rw [andThen_of_some hboth, andThen_of_none h, andThen_of_none h, andThen_of_some hf]
    | none =>
      have hboth : (s.andThen f).fault = none := (fault_andThen h f).trans hf
      rw [andThen_of_none hboth, andThen_of_none h, andThen_of_none h, andThen_of_none hf,
        List.append_assoc]

/-- A step that reads an argument and does not fail read it, and goes on with its value. -/
theorem withArgument_eq_of_none {A : Type} {x : Except ArgumentFault A} {f : A → Step}
    (h : (withArgument l x f).fault = none) : ∃ a, x = .ok a ∧ withArgument l x f = f a := by
  cases x with
  | ok a => exact ⟨a, rfl, rfl⟩
  | error e => cases h

/-- A step that computes a value and does not fail has it, and goes on with it. -/
theorem withValue_eq_of_none {A : Type} {x : Except ValueFault A} {f : A → Step}
    (h : (withValue l x f).fault = none) : ∃ a, x = .ok a ∧ withValue l x f = f a := by
  cases x with
  | ok a => exact ⟨a, rfl, rfl⟩
  | error e => cases h

/-! ## What a step keeps -/

/-- A step that goes through leaves a label with a property; it makes calls of one kind only, and
stops for faults of one kind only. -/
structure Keeps (I : Label → Prop) (P : Call → Prop) (Q : Fault → Prop) (s : Step) : Prop where
  label : s.fault = none → I s.label
  calls : ∀ c ∈ s.calls, P c
  fault : ∀ x ∈ s.fault, Q x

namespace Keeps

variable {I J : Label → Prop} {P P' : Call → Prop} {Q Q' : Fault → Prop}

/-- What is kept of more is kept of less. -/
theorem mono (h : Keeps I P Q s) (hI : ∀ l, I l → J l) (hP : ∀ c, P c → P' c)
    (hQ : ∀ x, Q x → Q' x) : Keeps J P' Q' s where
  label hnone := hI _ (h.label hnone)
  calls c hc := hP c (h.calls c hc)
  fault x hx := hQ x (h.fault x hx)

theorem done (h : I l) : Keeps I P Q (done l) :=
  ⟨fun _ => h, by simp, by simp⟩

theorem fail {x : Fault} (h : Q x) : Keeps I P Q (fail l x) :=
  ⟨fun hnone => (nomatch hnone), by simp, by simpa using h⟩

theorem note {n : Note} (h : I l) : Keeps I P Q (note n l) :=
  ⟨fun _ => h, by simp, by simp⟩

theorem call {c : Call} (h : I l) (hc : P c) : Keeps I P Q (call c l) :=
  ⟨fun _ => h, by simpa using hc, by simp⟩

/-- The second part of a sequence may rely on what the first part establishes, so the invariant
between them need not be the one at the ends. -/
theorem andThen (hs : Keeps J P Q s) (hf : ∀ l, J l → Keeps I P Q (f l)) :
    Keeps I P Q (s.andThen f) := by
  cases h : s.fault with
  | some x =>
    rw [andThen_of_some h]
    refine ⟨?_, hs.calls, hs.fault⟩
    intro hnone
    rw [h] at hnone
    cases hnone
  | none =>
    have ht := hf s.label (hs.label h)
    refine ⟨?_, ?_, ?_⟩
    · rw [fault_andThen h, label_andThen h]
      exact ht.label
    · rw [calls_andThen f h]
      intro c hc
      rcases List.mem_append.1 hc with hc | hc
      · exact hs.calls c hc
      · exact ht.calls c hc
    · rw [fault_andThen h]
      exact ht.fault

/-- A step that reads an argument keeps the invariant if its faults are allowed and if it goes on
properly with every value the reading gives. -/
theorem withArgument {A : Type} {x : Except ArgumentFault A} {f : A → Step}
    (hx : ∀ e, x = .error e → Q (.argument e)) (hf : ∀ a, x = .ok a → Keeps I P Q (f a)) :
    Keeps I P Q (withArgument l x f) := by
  cases x with
  | ok a => exact hf a rfl
  | error e => exact fail (hx e rfl)

/-- A step that computes a value keeps the invariant if its faults are allowed and if it goes on
properly with every value the computation gives. -/
theorem withValue {A : Type} {x : Except ValueFault A} {f : A → Step}
    (hx : ∀ e, x = .error e → Q (.value e)) (hf : ∀ a, x = .ok a → Keeps I P Q (f a)) :
    Keeps I P Q (withValue l x f) := by
  cases x with
  | ok a => exact hf a rfl
  | error e => exact fail (hx e rfl)

end Keeps

end Step

namespace Label

/-! ## Commands one after another -/

/-- What commands do, up to the first that fails. -/
def steps : List Command → Label → Step
  | [], l => .done l
  | c :: cs, l => (l.step c.name c.args).andThen (steps cs)

/-- Two command lists in a row do what the first does and then, unless it failed, what the second
does. -/
theorem steps_append (cs ds : List Command) (l : Label) :
    steps (cs ++ ds) l = (steps cs l).andThen (steps ds) := by
  induction cs generalizing l with
  | nil => exact (Step.andThen_done l _).symm
  | cons c cs ih =>
    have hrest : steps (cs ++ ds) = fun m => (steps cs m).andThen (steps ds) := funext ih
    rw [List.cons_append, steps, steps, Step.andThen_assoc, hrest]

/-- A list of one command is that command. -/
theorem steps_singleton (c : Command) (l : Label) : steps [c] l = l.step c.name c.args := by
  unfold steps
  cases h : (l.step c.name c.args).fault with
  | some x => exact Step.andThen_of_some h _
  | none =>
    rw [Step.andThen_of_none h]
    simp [steps, Step.done, ← h]

/-- What every command keeps is kept by all of them together. -/
theorem keeps_steps {I : Label → Prop} {P : Call → Prop} {Q : Fault → Prop} {cs : List Command}
    (hstep : ∀ c ∈ cs, ∀ l, I l → (l.step c.name c.args).Keeps I P Q) {l : Label} (hl : I l) :
    (l.steps cs).Keeps I P Q := by
  -- by induction on the commands, for all labels with the invariant
  induction cs generalizing l with
  | nil => exact .done hl
  | cons c cs ih =>
    apply Step.Keeps.andThen (hstep c List.mem_cons_self l hl)
    intro m hm
    exact ih (fun d hd => hstep d (List.mem_cons_of_mem c hd)) hm

end Label

end LabelPress
