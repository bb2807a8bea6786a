import LabelPress.Label.Basic
import LabelPress.Outcome

/-!
# Steps

What a command does to a label and asks of a surface, in order, as data. A surface may refuse a
call; the event then says how the label stands, so that a step describes every way in which it can
end.
-/

namespace LabelPress

inductive Event where
  | note (n : Note)
  /-- A call, and the label as it is if the surface refuses the call. -/
  | call (c : Call) (refused : Label)

structure Step where
  events : List Event
  /-- The label after the events, if no call was refused. -/
  label : Label
  /-- Why the command stops there, if it does. -/
  fault : Option Fault

namespace Step

/-- Nothing is asked, and the label is as given. -/
def done (l : Label) : Step := ⟨[], l, none⟩

def fail (l : Label) (fault : Fault) : Step := ⟨[], l, some fault⟩

def note (n : Note) (l : Label) : Step := ⟨[.note n], l, none⟩

/-- One call, on which the label does not depend. -/
def call (c : Call) (l : Label) : Step := ⟨[.call c l], l, none⟩

/-- One step after another; nothing follows on a fault. -/
def andThen (s : Step) (f : Label → Step) : Step :=
  match s.fault with
  | some _ => s
  | none =>
    let t := f s.label
    { t with events := s.events ++ t.events }

/-- What follows on arguments, if they are allowed. -/
def withArgument {A : Type} (l : Label) (x : Except ArgumentFault A) (f : A → Step) : Step :=
  match x with
  | .ok a => f a
  | .error e => fail l (.argument e)

/-- What follows on a value, if it is of use. -/
def withValue {A : Type} (l : Label) (x : Except ValueFault A) (f : A → Step) : Step :=
  match x with
  | .ok a => f a
  | .error e => fail l (.value e)

def calls (s : Step) : List Call :=
  s.events.filterMap fun
    | .call c _ => some c
    | .note _ => none

theorem andThen_done (l : Label) (f : Label → Step) : (done l).andThen f = f l := by
  simp [andThen, done]

theorem calls_andThen {s : Step} (f : Label → Step) (h : s.fault = none) :
    (s.andThen f).calls = s.calls ++ (f s.label).calls := by
  simp [andThen, h, calls]

end Step

end LabelPress
