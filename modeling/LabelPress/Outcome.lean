import LabelPress.Fault
import LabelPress.Note

/-!
# What comes of an operation

An operation answers with the state as it is afterwards, whether or not it has done what was asked:
a refused operation may have changed it too.
-/

namespace LabelPress

structure Outcome (S : Type) where
  state : S
  notes : List Note := []
  /-- Why the operation was refused, if it was. -/
  fault : Option Fault := none

namespace Outcome

variable {S T : Type}

/-- A state in which what was asked has been done. -/
def done (s : S) : Outcome S := { state := s }

/-- A state in which something was refused. -/
def refused (s : S) (fault : Fault) : Outcome S := { state := s, fault }

def noted (s : S) (n : Note) : Outcome S := { state := s, notes := [n] }

/-- What follows on a value, if it is of use. -/
def withValue {A : Type} (s : S) (x : Except ValueFault A) (f : A → Outcome S) : Outcome S :=
  match x with
  | .ok a => f a
  | .error e => refused s (.value e)

/-- The new state, or the old one if a value was of no use. -/
def ofValue (s : S) (x : Except ValueFault S) : Outcome S :=
  withValue s x done

/-- One operation after another; nothing follows on a refusal. -/
def andThen (o : Outcome S) (f : S → Outcome S) : Outcome S :=
  match o.fault with
  | some _ => o
  | none =>
    let e := f o.state
    { e with notes := o.notes ++ e.notes }

/-- One operation after another, the second in any case; a refusal of the second one counts. -/
def afterwards (o : Outcome S) (f : S → Outcome S) : Outcome S :=
  let e := f o.state
  { state := e.state, notes := o.notes ++ e.notes, fault := e.fault.or o.fault }

/-- The same with another fault, if there is one. -/
def recast (f : Fault → Fault) (o : Outcome S) : Outcome S :=
  { o with fault := o.fault.map f }

/-- The same for a state of another kind. -/
def map (f : S → T) (o : Outcome S) : Outcome T :=
  { state := f o.state, notes := o.notes, fault := o.fault }

theorem fault_map (f : S → T) (o : Outcome S) : (o.map f).fault = o.fault := rfl

theorem state_map (f : S → T) (o : Outcome S) : (o.map f).state = f o.state := rfl

theorem andThen_done (s : S) (f : S → Outcome S) : (done s).andThen f = f s := by
  simp [andThen, done]

theorem andThen_refused (s : S) (fault : Fault) (f : S → Outcome S) :
    (refused s fault).andThen f = refused s fault := rfl

end Outcome

end LabelPress
