import LabelPress.Proofs.Label.Verbs

/-!
# Arguments are checked first

A command that is refused for an argument does nothing else: it makes no call, and leaves no note. All
verbs but `BY` check their arguments before they change anything, so that the label is as it was. `BY`
sets its values one by one, and those before the refused one stay set (`Label.HalfSet`).

* `Label.refuses_step`: what a refused command leaves, whatever its name and its arguments are;
* `Label.checked_step`: it has made no call;
* `Label.steps_of_argument`: if commands stop at an argument, everything that was asked of the surface
  was asked by the commands before.

The end of a field makes three calls, and checks no argument: those of its barcode were checked when it
was asked for.
-/

namespace LabelPress

/-! ## Faults of arguments -/

namespace Argument

variable {command field : String} {arg : Option Text} {e : ArgumentFault}

/-- A number that is no integer or out of bounds is refused in the name of its command and field. -/
theorem names_integerWithin {text : Text} {low high : Int} {bound : Bound}
    (h : integerWithin command field text low high bound = .error e) :
    e.command = command ∧ e.field = field := by
  unfold integerWithin at h
  split at h
  · cases h
    exact ⟨rfl, rfl⟩
  · split at h
    · cases h
      exact ⟨rfl, rfl⟩
    · cases h

/-- So is an argument that has to be such a number, if it is there. -/
theorem names_integer {usual low high : Int}
    (h : integer command field arg usual low high = .error e) :
    e.command = command ∧ e.field = field := by
  cases arg with
  | none => cases h
  | some text => exact names_integerWithin h

/-- So is an argument that has to be a ratio. -/
theorem names_ratio {usual : Float} (h : ratio command field arg usual = .error e) :
    e.command = command ∧ e.field = field := by
  cases arg with
  | none => cases h
  | some text =>
    simp only [ratio] at h
    split at h
    · cases h
      exact ⟨rfl, rfl⟩
    · split at h
      · cases h
        exact ⟨rfl, rfl⟩
      · cases h

end Argument

namespace Step

/-- A step that refuses no argument. -/
abbrev Unargued (s : Step) : Prop :=
  s.Keeps (fun _ => True) (fun _ => True) fun x => ∀ e, x ≠ .argument e

/-- A step that makes no call if an argument is refused. -/
def Checked (s : Step) : Prop :=
  ∀ e, s.fault = some (.argument e) → s.calls = []

/-- A step that does nothing but refuse if an argument is refused, and then leaves a label that is
related to the fault. -/
def Refuses (I : ArgumentFault → Label → Prop) (s : Step) : Prop :=
  ∀ e, s.fault = some (.argument e) → ∃ m, s = .fail m (.argument e) ∧ I e m

variable {s : Step} {l : Label} {f : Label → Step} {I : ArgumentFault → Label → Prop}

theorem Unargued.withValue {A : Type} {x : Except ValueFault A} {f : A → Step}
    (hf : ∀ a, (f a).Unargued) : (Step.withValue l x f).Unargued :=
  Keeps.withValue (fun _ _ _ h => nomatch h) fun a _ => hf a

theorem Unargued.andThen (hs : s.Unargued) (hf : ∀ m, (f m).Unargued) : (s.andThen f).Unargued :=
  Keeps.andThen hs fun m _ => hf m

namespace Refuses

theorem done (l : Label) : (Step.done l).Refuses I := fun _ h => nomatch h

theorem of_unargued (h : s.Unargued) : s.Refuses I :=
  fun e he => absurd rfl (h.fault _ he e)

/-- A step that reads an argument first does nothing else if it is refused, so the label is the one
it began with. -/
theorem withArgument {A : Type} {x : Except ArgumentFault A} {f : A → Step}
    (hl : ∀ e, x = .error e → I e l) (hf : ∀ a, x = .ok a → (f a).Refuses I) :
    (Step.withArgument l x f).Refuses I := by
  cases x with
  | ok a => exact hf a rfl
  | error e =>
    intro e' he
    cases he
    exact ⟨l, rfl, hl e rfl⟩

/-- Such a step makes no call in vain. -/
theorem checked (h : s.Refuses I) : s.Checked := by
  intro e he
  obtain ⟨m, hm, -⟩ := h e he
  rw [hm]
  rfl

end Refuses

end Step

namespace Label

open Argument (get? integer ratio names_integer names_ratio)
open Step (Unargued Refuses Checked)

/-! ## Verb by verb -/

theorem unargued_call (c : Call) (l : Label) : (Step.call c l).Unargued :=
  .call trivial trivial

theorem unargued_goTo (x y : Int) (l : Label) : (goTo x y l).Unargued :=
  .withValue fun _ => unargued_call _ _

/-- The end of a field has no arguments. -/
theorem unargued_fieldEnd (l : Label) : (fieldEnd l).Unargued := by
  -- a barcode that cannot be formatted is a matter of values: its arguments are not checked again
  have hdraw : (if l.isPending then drawPending l else .done l).Unargued := by
    split
    · exact .withValue fun f => .andThen (.andThen (.note trivial) fun _ => unargued_call _ _)
        fun _ => .done trivial
    · exact .done trivial
  have hfont := Unargued.andThen hdraw fun m => (unargued_call _ _ : (resetFont m).Unargued)
  exact .andThen (.andThen hfont fun m => unargued_goTo 0 0 m) fun _ => .done trivial

/-- What `BY` leaves if it refuses the argument of a field: the values before that one are set. -/
inductive HalfSet (args : List Text) (l : Label) : String → Label → Prop where
  | width : HalfSet args l "w" l
  | ratio {w : Int} (hw : integer "BY" "w" (get? args 0) l.moduleWidth 1 10 = .ok w) :
    HalfSet args l "r" { l with moduleWidth := w }
  | height {w : Int} {r : Float} (hw : integer "BY" "w" (get? args 0) l.moduleWidth 1 10 = .ok w)
    (hr : ratio "BY" "r" (get? args 1) l.wideRatio = .ok r) :
    HalfSet args l "h" { l with moduleWidth := w, wideRatio := r }

/-- What a command leaves if it is refused for an argument. -/
def Leaves (name : Text) (args : List Text) (l : Label) (e : ArgumentFault) (m : Label) : Prop :=
  if Verb.ofName? name = some .barcodeDefaults then HalfSet args l e.field m else m = l

/-- `BY` sets each value before it reads the next argument, so a refusal finds the values before it
set. -/
theorem refuses_barcodeDefaults (args : List Text) (l : Label) :
    (barcodeDefaults args l).Refuses fun e m => HalfSet args l e.field m := by
  refine .withArgument (fun e he => ?_) fun w hw => ?_
  · exact (names_integer he).2 ▸ .width
  refine .withArgument (fun e he => ?_) fun r hr => ?_
  · exact (names_ratio he).2 ▸ .ratio hw
  refine .withArgument (fun e he => ?_) fun h _ => .done _
  exact (names_integer he).2 ▸ .height hw hr

/-- All other verbs leave the label alone until their last argument is checked. -/
theorem refuses_perform {v : Verb} (hv : v ≠ .barcodeDefaults) (args : List Text) (l : Label) :
    (perform v args l).Refuses fun _ m => m = l := by
  -- verb by verb: the checks come before anything is changed
  cases v with
  | font =>
    exact .withArgument (fun _ _ => rfl) fun _ _ =>
      .of_unargued (.withValue fun _ => unargued_call _ _)
  | namedFont => exact .of_unargued (.note trivial)
  | barcode => exact .withArgument (fun _ _ => rfl) fun _ _ => .done _
  | barcodeDefaults => exact absurd rfl hv
  | fieldData =>
    unfold perform fieldData
    simp only
    split
    · exact .done _
    · exact .of_unargued (unargued_call _ _)
  | fieldOrigin =>
    exact .withArgument (fun _ _ => rfl) fun _ _ => .of_unargued
      (.andThen (unargued_goTo _ _ l) fun _ => .done trivial)
  | fieldEnd => exact .of_unargued (unargued_fieldEnd l)
  | box =>
    exact .withArgument (fun _ _ => rfl) fun _ _ =>
      .of_unargued (.withValue fun _ => unargued_call _ _)
  | home =>
    exact .withArgument (fun _ _ => rfl) fun _ _ =>
      .of_unargued (.withValue fun _ => .done trivial)

/-- Every command leaves what it may leave when it is refused; one that is not known is not
refused. -/
theorem refuses_step (name : Text) (args : List Text) (l : Label) :
    (l.step name args).Refuses (Leaves name args l) := by
  unfold step Leaves
  cases hname : Verb.ofName? name with
  | none => exact .of_unargued (.note trivial)
  | some v =>
    by_cases hv : v = .barcodeDefaults
    · subst hv
      simpa [perform] using refuses_barcodeDefaults args l
    · simpa [hv] using refuses_perform hv args l

/-- Whatever a command is, it makes no call if one of its arguments is refused. -/
theorem checked_step (name : Text) (args : List Text) (l : Label) : (l.step name args).Checked :=
  (refuses_step name args l).checked

/-! ## Commands one after another -/

/-- Commands that stop have a first one that does, and those before it go through. -/
theorem exists_of_fault {cs : List Command} {l : Label} {x : Fault}
    (h : (l.steps cs).fault = some x) :
    ∃ before c after, cs = before ++ c :: after ∧ (l.steps before).fault = none ∧
      ((l.steps before).label.step c.name c.args).fault = some x := by
  -- induction on the commands: the first fails, or one behind it
  induction cs generalizing l with
  | nil => cases h
  | cons c cs ih =>
    rw [steps] at h
    cases hstep : (l.step c.name c.args).fault with
    | some y =>
      rw [Step.andThen_of_some hstep] at h
      exact ⟨[], c, cs, rfl, rfl, h⟩
    | none =>
      rw [Step.fault_andThen hstep] at h
      obtain ⟨before, d, after, rfl, hnone, hfault⟩ := ih h
      refine ⟨c :: before, d, after, rfl, ?_⟩
      rw [steps, Step.fault_andThen hstep, Step.label_andThen hstep]
      exact ⟨hnone, hfault⟩

/-- Commands stop where one is refused for an argument, and have made the calls of those before. -/
theorem steps_of_argument {before after : List Command} {c : Command} {l : Label}
    {e : ArgumentFault} (hbefore : (l.steps before).fault = none)
    (hc : ((l.steps before).label.step c.name c.args).fault = some (.argument e)) :
    (l.steps (before ++ c :: after)).fault = some (.argument e) ∧
      (l.steps (before ++ c :: after)).calls = (l.steps before).calls := by
  have hstop : (l.steps before).label.steps (c :: after) =
      (l.steps before).label.step c.name c.args := Step.andThen_of_some hc _
  rw [steps_append, Step.fault_andThen hbefore, Step.calls_andThen _ hbefore, hstop,
    checked_step _ _ _ e hc, List.append_nil]
  exact ⟨hc, rfl⟩

end Label

end LabelPress
