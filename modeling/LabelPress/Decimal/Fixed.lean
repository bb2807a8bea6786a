import LabelPress.Decimal.Shortest

/-!
# Decimals with a fixed number of places

A floating-point number with a given number of digits after the point. The exact value is rounded,
and a half goes to the even neighbour.
-/

namespace LabelPress.Decimal

/-- A natural number of units in the last of `places` places, written with a point. -/
def withPoint (places n : Nat) : List Char :=
  let cs := padded (places + 1) n
  let k := cs.length - places
  cs.take k ++ (if places = 0 then [] else '.' :: cs.drop k)

/-- A floating-point number with `places` digits after the point. -/
def fixed (places : Nat) (x : Float) : List Char :=
  match Binary.ofFloat x with
  | .nan => Words.plain.nan.toList
  | .infinite negative => signed negative Words.plain.infinite.toList
  | .finite negative mantissa exponent =>
    let (a, b) := twoPow exponent
    signed negative (withPoint places (roundDiv (mantissa * a * Nat.pow 10 places) b))

end LabelPress.Decimal
