import LabelPress.Decimal.Fixed

/-!
# Numbers

A number is an integer of any size or a floating-point number; the two stay apart, because a
settings file that says `57` is answered with `57` and not with `57.0`. Comparison and the quotient
of two integers are exact.
-/

namespace LabelPress

/-- Why a value cannot be used where a number is wanted. -/
inductive ValueFault where
  /-- The value is of a kind that is never a number here. -/
  | wrongKind
  /-- The text does not read as a number. -/
  | notNumeric
  /-- A text was given where a number is printed with fixed places. -/
  | textAsNumber
  /-- The integer is beyond the largest floating-point number. -/
  | tooLarge
  | divisionByZero
  /-- No colour has this code. -/
  | unknownColour
  /-- A list has more or fewer items than are wanted. -/
  | wrongLength
  /-- The value has no such part: a plain value where a colour or a formatting is wanted. -/
  | missingPart
  deriving DecidableEq, Repr

inductive Number where
  | int (n : Int)
  | float (x : Float)
  deriving Repr

namespace Decimal

/-- The order of two numbers; nothing compares with what is not a number. -/
def Binary.compare? : Binary → Binary → Option Ordering
  | .nan, _ | _, .nan => none
  | .infinite a, .infinite b => some (compare b.toNat a.toNat)
  | .infinite negative, .finite .. => some (if negative then .lt else .gt)
  | .finite .., .infinite negative => some (if negative then .gt else .lt)
  | .finite a m p, .finite b n q =>
    let low := min p q
    let side (negative : Bool) (mantissa : Nat) (exponent : Int) : Int :=
      let size : Nat := mantissa * Nat.pow 2 (exponent - low).toNat
      if negative then -size else size
    some (compare (side a m p) (side b n q))

/-- Whether a finite number is a whole multiple of another finite one that is not zero. -/
def Binary.isMultipleOf : Binary → Binary → Bool
  | .finite _ m p, .finite _ n q =>
    let low := min p q
    let size (mantissa : Nat) (exponent : Int) : Nat :=
      mantissa * Nat.pow 2 (exponent - low).toNat
    size m p % size n q == 0
  | _, _ => false

def isWhole (x : Float) : Bool :=
  (Binary.ofFloat x).isMultipleOf (.finite false 1 0)

end Decimal

namespace Number

def exact : Number → Decimal.Binary
  | .int n => .finite (decide (n < 0)) n.natAbs 0
  | .float x => .ofFloat x

def le (a b : Number) : Bool :=
  match a.exact.compare? b.exact with
  | some .lt | some .eq => true
  | _ => false

def lt (a b : Number) : Bool :=
  a.exact.compare? b.exact == some .lt

/-- Whether two numbers are equal; `8` and `8.0` are. -/
def same (a b : Number) : Bool :=
  a.exact.compare? b.exact == some .eq

def toFloat : Number → Except ValueFault Float
  | .float x => .ok x
  | .int n =>
    match Decimal.nearest? n.natAbs 1 with
    | some x => .ok (if n < 0 then -x else x)
    | none => .error .tooLarge

/-- Whether an integer is a floating-point number without rounding, whatever its size. -/
def isSmall (n : Int) : Bool :=
  n.natAbs ≤ Nat.pow 2 53

/-- The quotient of two numbers, rounded once if both are integers. -/
def dividedBy : Number → Number → Except ValueFault Float
  | .int a, .int b =>
    if b = 0 then .error .divisionByZero
    else if isSmall a && isSmall b then .ok (Float.ofInt a / Float.ofInt b)
    else
      match Decimal.nearest? a.natAbs b.natAbs with
      | some x => .ok (if decide (a < 0) != decide (b < 0) then -x else x)
      | none => .error .tooLarge
  | a, b => do
    let x ← a.toFloat
    let y ← b.toFloat
    if y == 0.0 then .error .divisionByZero else .ok (x / y)

/-- The sum of two numbers, exact if both are integers. -/
def plus : Number → Number → Except ValueFault Number
  | .int a, .int b => .ok (.int (a + b))
  | a, b => do return .float ((← a.toFloat) + (← b.toFloat))

/--
Whether a number is a whole multiple of another one. A quotient that is too large is taken exactly;
what is not a number is a multiple of nothing.
-/
def isMultipleOf : Number → Number → Except ValueFault Bool
  | .int a, .int b => if b = 0 then .error .divisionByZero else .ok (a % b == 0)
  | .float x, .int b => do
    let y ← toFloat (.int b)
    if y == 0.0 then throw .divisionByZero
    else return (Decimal.Binary.ofFloat x).isMultipleOf (.ofFloat y)
  | a, .float y => do
    let x ← a.toFloat
    if y == 0.0 then throw .divisionByZero
    else if (x / y).isNaN then throw .notNumeric
    else if x.isInf then throw .tooLarge
    else if (x / y).isInf then return a.exact.isMultipleOf (.ofFloat y)
    else return Decimal.isWhole (x / y)

/-- A number in the shortest form that reads back. -/
def chars (words : Decimal.Words) : Number → List Char
  | .int n => Decimal.integer n
  | .float x => Decimal.shortest words x

/-- Whether what should be a number is not one. -/
def isNaN : Number → Bool
  | .int _ => false
  | .float x => x.isNaN

def isZero : Number → Bool
  | .int n => n == 0
  | .float x => x == 0.0

theorem toFloat_float (x : Float) : toFloat (.float x) = .ok x := rfl

theorem dividedBy_zero (a : Int) : dividedBy (.int a) (.int 0) = .error .divisionByZero := rfl

end Number

end LabelPress
