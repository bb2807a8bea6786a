import LabelPress.Decimal.Reader
import LabelPress.Number

/-!
# JSON values

Values as they stand in settings files and recorded drawings. An object keeps its members in the
order in which they were written. The functions here say what a value counts for where a number,
a condition or a member is wanted.
-/

namespace LabelPress

inductive Json where
  | null
  | bool (b : Bool)
  | number (n : Number)
  | string (t : Text)
  | array (items : List Json)
  | object (members : List (Text × Json))
  deriving Repr

namespace Json

abbrev int (n : Int) : Json := .number (.int n)

abbrev float (x : Float) : Json := .number (.float x)

instance : Inhabited Json := ⟨.null⟩

def lookup? (members : List (Text × Json)) (name : Text) : Option Json :=
  (members.find? (·.1 == name)).map (·.2)

/-- The members with one of them set: in its place if it is there, at the end if it is new. -/
def insert (members : List (Text × Json)) (name : Text) (x : Json) : List (Text × Json) :=
  if members.any (·.1 == name) then
    members.map fun m => if m.1 == name then (name, x) else m
  else members ++ [(name, x)]

/-- The value of a member, for an object that has it. -/
def get? (x : Json) (name : Text) : Option Json :=
  match x with
  | .object members => lookup? members name
  | _ => none

/-- The elements of a value: the items of a list, the characters of a text, the names of members. -/
def elements? : Json → Option (List Json)
  | .array xs => some xs
  | .string t => some (t.points.map fun p => .string (.singleton p))
  | .object ms => some (ms.map fun m => .string m.1)
  | _ => none

/-- Whether a value counts as a condition that holds: neither nothing, nor zero, nor empty. -/
def isTruthy : Json → Bool
  | .null => false
  | .bool b => b
  | .number n => !n.isZero
  | .string t => !t.isEmpty
  | .array xs => !xs.isEmpty
  | .object ms => !ms.isEmpty

/-- The number that a value is in arithmetic: a truth value is one or zero. -/
def number? : Json → Option Number
  | .number n => some n
  | .bool b => some (.int b.toInt)
  | _ => none

/-- The floating-point number that a value is read as; a text is read as a number. -/
def toFloat : Json → Except ValueFault Float
  | .string t =>
    match Decimal.number? t with
    | some x => .ok x
    | none => .error .notNumeric
  | x =>
    match x.number? with
    | some n => n.toFloat
    | none => .error .wrongKind

/-- The floating-point number that a value is in arithmetic; a text is no number here. -/
def factor (x : Json) : Except ValueFault Float :=
  match x.number? with
  | some n => n.toFloat
  | none => .error .wrongKind

/-- The sum of two values; a text is no number here. -/
def plus (x y : Json) : Except ValueFault Number :=
  match x.number?, y.number? with
  | some m, some n => m.plus n
  | _, _ => .error .wrongKind

/-- A value with a fixed number of decimal places. -/
def fixed (places : Nat) : Json → Except ValueFault (List Char)
  | .string _ => .error .textAsNumber
  | x =>
    match x.number? with
    | some n => Decimal.fixed places <$> n.toFloat
    | none => .error .wrongKind

mutual

/--
Whether two values are equal: numbers by their value, members in any order. What is not a number is
equal to itself.
-/
def same : Json → Json → Bool
  | .null, .null => true
  | .bool a, .bool b => a == b
  | .number a, .number b => a.same b || (a.isNaN && b.isNaN)
  | .string a, .string b => a == b
  | .array xs, .array ys => sameItems xs ys
  | .object ms, .object ns => ms.length == ns.length && sameMembers ms ns
  | _, _ => false

/-- Whether two lists have equal values in the same order. -/
def sameItems : List Json → List Json → Bool
  | [], [] => true
  | x :: xs, y :: ys => same x y && sameItems xs ys
  | _, _ => false

/-- Whether every member of the first list has an equal one in the second. -/
def sameMembers : List (Text × Json) → List (Text × Json) → Bool
  | [], _ => true
  | (name, x) :: ms, ns =>
    (match lookup? ns name with
      | some y => same x y
      | none => false) && sameMembers ms ns

end

end Json

end LabelPress
