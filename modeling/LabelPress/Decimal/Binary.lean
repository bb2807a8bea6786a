/-!
# Binary floating point, exactly

What a floating-point number stands for, as an integer times a power of two, and the way back: the
floating-point number nearest to a fraction. Everything that prints, compares or divides numbers
exactly goes through these two.
-/

namespace LabelPress.Decimal

/-- The meaning of a floating-point number; a finite one is `±mantissa · 2 ^ exponent`. -/
inductive Binary where
  | nan
  | infinite (negative : Bool)
  | finite (negative : Bool) (mantissa : Nat) (exponent : Int)
  deriving DecidableEq, Repr

/-- The meaning of a floating-point number, read off its bits. -/
def Binary.ofFloat (x : Float) : Binary :=
  let bits := x.toBits.toNat
  let negative := decide (Nat.pow 2 63 ≤ bits)
  let exponent : Nat := bits / Nat.pow 2 52 % Nat.pow 2 11
  let fraction := bits % Nat.pow 2 52
  if exponent = 2047 then
    if fraction = 0 then .infinite negative else .nan
  else if exponent = 0 then .finite negative fraction (-1074)
  else .finite negative (Nat.pow 2 52 + fraction) ((exponent : Int) - 1075)

/-- A power of two as a fraction. -/
def twoPow (e : Int) : Nat × Nat :=
  if 0 ≤ e then (Nat.pow 2 e.toNat, 1) else (1, Nat.pow 2 (-e).toNat)

/-- A power of ten as a fraction. -/
def tenPow (e : Int) : Nat × Nat :=
  if 0 ≤ e then (Nat.pow 10 e.toNat, 1) else (1, Nat.pow 10 (-e).toNat)

/-- The integer nearest to `num / den`; a half goes to the even neighbour. -/
def roundDiv (num den : Nat) : Nat :=
  let q := num / den
  match compare (2 * (num % den)) den with
  | .lt => q
  | .eq => q + q % 2
  | .gt => q + 1

/-- The floor of the quotient `num / (den · 2 ^ e)`. -/
def scaledFloor (num den : Nat) (e : Int) : Nat :=
  let (a, b) := twoPow e
  num * b / (den * a)

/--
The floating-point number nearest to `num / den`, or nothing if that is beyond the largest one.
The exponent is the least one, not below -1074, that leaves 53 binary digits.
-/
def nearest? (num den : Nat) : Option Float :=
  if num = 0 then some 0.0
  else
    let guess : Int := max ((num.log2 : Int) - den.log2 - 52) (-1074)
    let isSmall := scaledFloor num den guess < Nat.pow 2 52
    let exponent := if isSmall then max (guess - 1) (-1074) else guess
    let (a, b) := twoPow exponent
    let mantissa := roundDiv (num * b) (den * a)
    let bits :=
      if mantissa < Nat.pow 2 52 then mantissa
      else ((exponent + 1074) * Nat.pow 2 52 + mantissa).toNat
    if bits < 2047 * Nat.pow 2 52 then some (Float.ofBits bits.toUInt64) else none

end LabelPress.Decimal
