import LabelPress.Decimal.Numeral
import LabelPress.Text.Blank

/-!
# Numbers read from text

What counts as an integer or as a number in an argument: digits of any script, single underscores
between digits, a sign, and white space around. `integer?` and `number?` read such texts.
-/

namespace LabelPress.Decimal

open Text (isBlank digitValue? digitChar isAsciiDigit trimBoth)

/-- The most digits that a text may have to be read as an integer. -/
def maxIntegerDigits : Nat := 4300

/-- The white space that is allowed around a number. -/
def isPadding (c : Char) : Bool :=
  c == ' ' || ('\t' ≤ c && c ≤ '\r')

/-- A character in its ASCII form: a foreign digit or blank becomes the ASCII one. -/
def toAscii (c : Char) : Char :=
  if c.toNat < 128 then c
  else if isBlank c then ' '
  else ((digitValue? c).map digitChar).getD '?'

/-- The text without its underscores, each of which must stand between two digits. -/
def ungroup? : List Char → Option (List Char)
  | [] => some []
  | '_' :: _ => none
  | c :: '_' :: d :: cs =>
    if isAsciiDigit c && isAsciiDigit d then (c :: ·) <$> ungroup? (d :: cs) else none
  | c :: cs => (c :: ·) <$> ungroup? cs

/-- A sign and what follows it; true is the minus sign. -/
def splitSign : List Char → Bool × List Char
  | '-' :: cs => (true, cs)
  | '+' :: cs => (false, cs)
  | cs => (false, cs)

/-- The bare form of a number text: ASCII, without padding and underscores. -/
def bare? (t : Text) : Option (List Char) := do
  ungroup? (trimBoth isPadding ((← t.chars?).map toAscii))

/-- A run of digits, not empty. -/
def isDigits (cs : List Char) : Bool :=
  !cs.isEmpty && cs.all isAsciiDigit

def integer? (t : Text) : Option Int := do
  let (negative, ds) := splitSign (← bare? t)
  guard (isDigits ds && ds.length ≤ maxIntegerDigits)
  return if negative then -value ds else value ds

/--
The floating-point number nearest to `digits · 10 ^ exponent`. Numbers beyond the range are cut off
before any power of ten is formed.
-/
def toFloat (digits : Nat) (exponent : Int) : Float :=
  let magnitude := (numeral digits).length + exponent
  if digits = 0 || magnitude < -400 then 0.0
  else if 400 < magnitude then Float.ofScientific 1 false 400
  else Float.ofScientific digits (exponent < 0) exponent.natAbs

/-- The exponent part of a number, from its mark on. -/
def exponent? : List Char → Option Int
  | [] => some 0
  | c :: cs =>
    if c == 'e' || c == 'E' then
      let (negative, ds) := splitSign cs
      if isDigits ds then some (if negative then -value ds else value ds) else none
    else none

/-- A number without sign: digits, a fraction and an exponent, the last two optional. -/
def unsigned? (cs : List Char) : Option Float :=
  let whole := cs.takeWhile isAsciiDigit
  let rest := cs.dropWhile isAsciiDigit
  let (fraction, tail) :=
    match rest with
    | '.' :: r => (r.takeWhile isAsciiDigit, r.dropWhile isAsciiDigit)
    | r => ([], r)
  let digits := whole ++ fraction
  if digits.isEmpty then none
  else (exponent? tail).map fun e => toFloat (value digits) (e - fraction.length)

/-- A letter in lower case, for the words that stand for numbers. -/
def lowerAscii (c : Char) : Char :=
  if 'A' ≤ c ∧ c ≤ 'Z' then Char.ofNat (c.toNat + 32) else c

/-- The words that stand for a number. -/
def named? (cs : List Char) : Option Float :=
  let word := String.ofList (cs.map lowerAscii)
  if word = "inf" ∨ word = "infinity" then some (1.0 / 0.0)
  else if word = "nan" then some (0.0 / 0.0)
  else none

/-- The number that a text stands for; too large a number is infinite. -/
def number? (t : Text) : Option Float := do
  let (negative, cs) := splitSign (← bare? t)
  let x ← named? cs <|> unsigned? cs
  return if negative then -x else x

end LabelPress.Decimal
