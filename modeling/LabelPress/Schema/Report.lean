import LabelPress.Schema.Violation

/-!
# Reports

What a check finds, in order. A report is made as far as it is read: most questions need only its
first entry, and a fault of the schema that stands behind it does not count then.
-/

namespace LabelPress

/-- An entry of a report that ends a check. -/
inductive Finding where
  | violation (v : Violation)
  | fault (f : SchemaFault)

inductive Report where
  /-- Nothing more is found. -/
  | done
  | found (v : Violation) (rest : Unit → Report)
  /-- The schema says nothing more. -/
  | fault (f : SchemaFault)

namespace Report

/-- One report after another; nothing follows on a fault. -/
def append : Report → (Unit → Report) → Report
  | .done, next => next ()
  | .found v rest, next => .found v fun _ => (rest ()).append next
  | .fault f, _ => .fault f

/-- A report seen from one step further out. -/
def under (step : Json) : Report → Report
  | .done => .done
  | .found v rest => .found (v.under step) fun _ => (rest ()).under step
  | .fault f => .fault f

def first? : Report → Option Finding
  | .done => none
  | .found v _ => some (.violation v)
  | .fault f => some (.fault f)

/-- Whether nothing is found first; what follows does not count. -/
def isClean : Report → Except SchemaFault Bool
  | .done => .ok true
  | .found .. => .ok false
  | .fault f => .error f

/-- Whether nothing at all is found, by going on to the end. -/
def isEmpty : Report → Except SchemaFault Bool
  | .done => .ok true
  | .found _ rest => (fun _ => false) <$> (rest ()).isEmpty
  | .fault f => .error f

/-- A report of one complaint about the value itself, if a condition fails. -/
def demand (condition : Bool) (c : Complaint) : Report :=
  if condition then .done else .found ⟨[], c⟩ fun _ => .done

/-- A report of one complaint, if a condition fails that might not be decided. -/
def require (condition : Except SchemaFault Bool) (c : Complaint) : Report :=
  match condition with
  | .ok b => demand b c
  | .error f => .fault f

def each {A : Type} (f : A → Report) : List A → Report
  | [] => .done
  | a :: as => (f a).append fun _ => each f as

/-- The reports on several things that are counted from a number. -/
def eachFrom {A : Type} (f : Nat → A → Report) : Nat → List A → Report
  | _, [] => .done
  | i, a :: as => (f i a).append fun _ => eachFrom f (i + 1) as

/-- What follows on a value, if it could be made. -/
def withValue {A : Type} (x : Except SchemaFault A) (f : A → Report) : Report :=
  match x with
  | .ok a => f a
  | .error e => .fault e

theorem first?_append (r : Report) (next : Unit → Report) :
    (r.append next).first? = r.first?.or (next ()).first? := by
  cases r <;> simp [append, first?]

theorem append_done (r : Report) : r.append (fun _ => .done) = r := by
  induction r with
  | done => rfl
  | found v rest ih => simp [append, ih]
  | fault f => rfl

end Report

end LabelPress
