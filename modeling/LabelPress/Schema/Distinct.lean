import LabelPress.Json.Basic

/-!
# Lists without repetition

Whether no two items of a list are equal. A list that can be sorted is sorted, and only neighbours
are compared; in the order, a truth value inside an item counts as a number, while it is equal to
none. All items of other lists are compared with each other.
-/

namespace LabelPress.Json

mutual

/-- A value with numbers in place of truth values. -/
def inNumbers : Json → Json
  | .bool b => .int b.toInt
  | .array xs => .array (inNumbersItems xs)
  | .object ms => .object (inNumbersMembers ms)
  | x => x

/-- Values with numbers in place of truth values. -/
def inNumbersItems : List Json → List Json
  | [] => []
  | x :: xs => inNumbers x :: inNumbersItems xs

/-- Members with numbers in place of truth values. -/
def inNumbersMembers : List (Text × Json) → List (Text × Json)
  | [] => []
  | (name, x) :: ms => (name, inNumbers x) :: inNumbersMembers ms

end

mutual

/-- Whether a value without truth values comes before another one, if the two have an order. -/
def before? : Json → Json → Option Bool
  | .number a, .number b => some (a.lt b)
  | .string s, .string t => some (decide (s < t))
  | .array xs, .array ys => itemsBefore? xs ys
  | _, _ => none

/-- Whether a list comes before another one: the first items that differ say so. -/
def itemsBefore? : List Json → List Json → Option Bool
  | _, [] => some false
  | [], _ :: _ => some true
  | x :: xs, y :: ys => if x.same y then itemsBefore? xs ys else before? x y

end

/-- Whether an item has a place in the order of items. -/
def isOrdered : Json → Bool
  | .bool _ => false
  | _ => true

/-- Whether one item comes before another one, if the two have an order. -/
def itemBefore? (x y : Json) : Option Bool :=
  if x.isOrdered && y.isOrdered then before? x.inNumbers y.inNumbers else none

def noEqualNeighbours : List Json → Bool
  | x :: y :: rest => !x.same y && noEqualNeighbours (y :: rest)
  | _ => true

/-- Whether no two values of a list are equal. -/
def noneEqual : List Json → Bool
  | [] => true
  | x :: xs => !xs.any x.same && noneEqual xs

def areDistinct (xs : List Json) : Bool :=
  if xs.all fun x => xs.all fun y => (itemBefore? x y).isSome then
    noEqualNeighbours (xs.mergeSort fun x y => itemBefore? y x != some true)
  else noneEqual xs

end LabelPress.Json
