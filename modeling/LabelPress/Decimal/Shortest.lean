import LabelPress.Decimal.Binary
import LabelPress.Decimal.Numeral

/-!
# Shortest decimals

The decimal number with the fewest digits that reads back as a given floating-point number. Of two
such numbers the nearer one is taken. All comparisons are between natural numbers.
-/

namespace LabelPress.Decimal

/-- A decimal number `digits · 10 ^ exponent`. -/
structure Scientific where
  digits : Nat
  exponent : Int
  deriving DecidableEq, Repr

/--
The reals that round to one floating-point number, over the common denominator `den`: from `low`
to `high` around `mid`, the ends included or not.
-/
structure Rounding where
  low : Nat
  mid : Nat
  high : Nat
  den : Nat
  closed : Bool
  deriving DecidableEq, Repr

/--
The reals that round to `mantissa · 2 ^ exponent`. Below a power of two the neighbour is only half
as far away; the ends belong to the even mantissa.
-/
def Rounding.of (mantissa : Nat) (exponent : Int) : Rounding :=
  let (a, b) := twoPow exponent
  let narrow := mantissa = Nat.pow 2 52 ∧ -1074 < exponent
  { low := (4 * mantissa - if narrow then 1 else 2) * a
    mid := 4 * mantissa * a
    high := (4 * mantissa + 2) * a
    den := 4 * b
    closed := mantissa % 2 == 0 }

/-- Whether `num / den` rounds to the number. -/
def Rounding.contains (r : Rounding) (num den : Nat) : Bool :=
  let n := num * r.den
  if r.closed then r.low * den ≤ n && n ≤ r.high * den else r.low * den < n && n < r.high * den

/-- The number of digits before the point of `num / den`, zero or less for a small fraction. -/
def digitsBeforePoint (num den : Nat) : Int :=
  if den ≤ num then (numeral (num / den)).length else 1 - (numeral ((den - 1) / num)).length

/-- The decimal with `n` digits that rounds to the number, if there is one; the nearer of two. -/
def Rounding.pick? (r : Rounding) (n : Nat) : Option Scientific :=
  let exponent := digitsBeforePoint r.mid r.den - n
  let (a, b) := tenPow exponent
  let below := r.mid * b / (r.den * a)
  let above := below + 1
  let hit (d : Nat) := r.contains (d * a) b
  let nearer :=
    match compare (2 * (r.mid * b)) ((2 * below + 1) * (r.den * a)) with
    | .lt => below
    | .eq => below + below % 2
    | .gt => above
  if hit below && hit above then some ⟨nearer, exponent⟩
  else if hit below then some ⟨below, exponent⟩
  else if hit above then some ⟨above, exponent⟩
  else none

/-- The shortest decimal that rounds to the number; seventeen digits always suffice. -/
def Rounding.shortest (r : Rounding) : Scientific :=
  ((List.range 17).findSome? fun i => r.pick? (i + 1)).getD ⟨0, 0⟩

/-- The digits of a numeral up to its last nonzero one. -/
def significant (n : Nat) : List Char :=
  ((numeral n).reverse.dropWhile (· == '0')).reverse

/-- The exponent part: a sign and at least two digits. -/
def exponentMark (e : Int) : List Char :=
  'e' :: (if e < 0 then '-' else '+') :: padded 2 e.natAbs

/--
A positive decimal number as text. It is positional from `0.0001` to below `10 ^ 16`, with at least
one digit after the point, and has an exponent outside.
-/
def Scientific.render (s : Scientific) : List Char :=
  let ds := significant s.digits
  let point : Int := s.exponent + (numeral s.digits).length
  if -4 < point ∧ point ≤ 16 then
    if point ≤ 0 then '0' :: '.' :: List.replicate (-point).toNat '0' ++ ds
    else
      let k := point.toNat
      let fraction := ds.drop k
      ds.take k ++ List.replicate (k - ds.length) '0' ++ '.' ::
        (if fraction.isEmpty then ['0'] else fraction)
  else
    let tail := ds.drop 1
    ds.take 1 ++ (if tail.isEmpty then [] else '.' :: tail) ++ exponentMark (point - 1)

/-- The words for the numbers that no decimal stands for. -/
structure Words where
  nan : String
  infinite : String

/-- The words of messages. -/
def Words.plain : Words := ⟨"nan", "inf"⟩

/-- The sign in front of a negative number. -/
def signed (negative : Bool) (cs : List Char) : List Char :=
  if negative then '-' :: cs else cs

/-- A floating-point number in the fewest digits that read back. -/
def shortest (words : Words) (x : Float) : List Char :=
  match Binary.ofFloat x with
  | .nan => words.nan.toList
  | .infinite negative => signed negative words.infinite.toList
  | .finite negative 0 _ => signed negative ['0', '.', '0']
  | .finite negative mantissa exponent =>
    signed negative (Rounding.of mantissa exponent).shortest.render

end LabelPress.Decimal
