import LabelPress.Json.Basic
import LabelPress.Text.Hex

/-!
# Reading JSON

JSON text as a value. The words `NaN`, `Infinity` and `-Infinity` are numbers, a numeral without
fraction and exponent is an integer, and of two members of one name the later one counts. Lists and
objects stand in one another up to a depth. The functions carry the depth that is left and a bound
on their calls; `parse` starts with a bound that no text reaches.
-/

namespace LabelPress.Json

open Decimal (isDigits)
open Text (isAsciiDigit hexNumber?)

/-- Why a text is not read. -/
inductive ReadFault where
  /-- The text is not JSON. -/
  | malformed
  /-- An integer has more digits than are read. -/
  | longInteger
  /-- Lists and objects stand too deep in one another. -/
  | tooDeep
  deriving DecidableEq, Repr

/-- How deep lists and objects may stand in one another. -/
def maxDepth : Nat := 990

/-- Whether a character may stand between the parts of a value. -/
def isSpace (c : Char) : Bool :=
  c == ' ' || c == '\t' || c == '\n' || c == '\r'

/-- The text from its first character that is not space. -/
def skipSpace (cs : List Char) : List Char :=
  cs.dropWhile isSpace

/-- The character that a two-letter escape stands for. -/
def simpleEscape? (c : Char) : Option Char :=
  match c with
  | '"' => some '"'
  | '\\' => some '\\'
  | '/' => some '/'
  | 'b' => some '\x08'
  | 'f' => some '\x0c'
  | 'n' => some '\n'
  | 'r' => some '\r'
  | 't' => some '\t'
  | _ => none

/-- The first half of a pair of 16-bit units. -/
def isHighUnit (n : Nat) : Bool :=
  0xd800 ≤ n && n < 0xdc00

/-- The second half of a pair of 16-bit units. -/
def isLowUnit (n : Nat) : Bool :=
  0xdc00 ≤ n && n < 0xe000

/-- The character of a pair of units. -/
def pairChar (high low : Nat) : Char :=
  Char.ofNat (0x10000 + (high - 0xd800) * 0x400 + (low - 0xdc00))

/-- The code points of a run of codes, two halves of a pair joined into one character. -/
def assemble : List Nat → List CodePoint
  | [] => []
  | [n] => [.ofCode n]
  | m :: n :: ns =>
    if isHighUnit m && isLowUnit n then .char (pairChar m n) :: assemble ns
    else .ofCode m :: assemble (n :: ns)

/-- One more code in front of those that were read. -/
def prepend (n : Nat) (r : List Nat × List Char) : List Nat × List Char :=
  (n :: r.1, r.2)

/-- The codes of a string up to its closing quote: of a character, or as an escape gives them. -/
def readCodes : List Char → Except ReadFault (List Nat × List Char)
  | [] => .error .malformed
  | '"' :: cs => .ok ([], cs)
  | '\\' :: 'u' :: a :: b :: c :: d :: cs =>
    match hexNumber? [a, b, c, d] with
    | some n => prepend n <$> readCodes cs
    | none => .error .malformed
  | '\\' :: c :: cs =>
    match simpleEscape? c with
    | some x => prepend x.toNat <$> readCodes cs
    | none => .error .malformed
  | c :: cs => if c < ' ' then .error .malformed else prepend c.toNat <$> readCodes cs

/-- The text of a string up to its closing quote. -/
def readString (cs : List Char) : Except ReadFault (Text × List Char) := do
  let (codes, rest) ← readCodes cs
  return (⟨assemble codes⟩, rest)

/-- The digits of the whole part: a single zero, or digits that do not start with one. -/
def wholePart (cs : List Char) : List Char × List Char :=
  match cs with
  | '0' :: rest => (['0'], rest)
  | _ => (cs.takeWhile isAsciiDigit, cs.dropWhile isAsciiDigit)

/-- The digits after a point, if the point is followed by one. -/
def fractionPart (cs : List Char) : List Char × List Char :=
  match cs with
  | '.' :: rest =>
    let ds := rest.takeWhile isAsciiDigit
    if ds.isEmpty then ([], cs) else (ds, rest.dropWhile isAsciiDigit)
  | _ => ([], cs)

/-- The exponent, if its mark is followed by digits. -/
def exponentPart (cs : List Char) : Option Int × List Char :=
  match cs with
  | c :: rest =>
    if c == 'e' || c == 'E' then
      let (negative, tail) := Decimal.splitSign rest
      let ds := tail.takeWhile isAsciiDigit
      if ds.isEmpty then (none, cs)
      else
        let n : Int := Decimal.value ds
        (some (if negative then -n else n), tail.dropWhile isAsciiDigit)
    else (none, cs)
  | [] => (none, cs)

def readNumeral (negative : Bool) (cs : List Char) : Except ReadFault (Json × List Char) :=
  let (whole, rest) := wholePart cs
  let (fraction, rest) := fractionPart rest
  let (exponent, rest) := exponentPart rest
  if whole.isEmpty then .error .malformed
  else if fraction.isEmpty && exponent.isNone then
    if Decimal.maxIntegerDigits < whole.length then .error .longInteger
    else
      let n : Int := Decimal.value whole
      .ok (.int (if negative then -n else n), rest)
  else
    let x := Decimal.toFloat (Decimal.value (whole ++ fraction))
      (exponent.getD 0 - fraction.length)
    .ok (.float (if negative then -x else x), rest)

def readScalar (cs : List Char) : Except ReadFault (Json × List Char) :=
  match cs with
  | 'n' :: 'u' :: 'l' :: 'l' :: rest => .ok (.null, rest)
  | 't' :: 'r' :: 'u' :: 'e' :: rest => .ok (.bool true, rest)
  | 'f' :: 'a' :: 'l' :: 's' :: 'e' :: rest => .ok (.bool false, rest)
  | 'N' :: 'a' :: 'N' :: rest => .ok (.float (0.0 / 0.0), rest)
  | 'I' :: 'n' :: 'f' :: 'i' :: 'n' :: 'i' :: 't' :: 'y' :: rest => .ok (.float (1.0 / 0.0), rest)
  | '-' :: 'I' :: 'n' :: 'f' :: 'i' :: 'n' :: 'i' :: 't' :: 'y' :: rest =>
    .ok (.float (-1.0 / 0.0), rest)
  | '-' :: rest => readNumeral true rest
  | _ => readNumeral false cs

mutual

/-- A value at the start of a text, with lists and objects up to a depth. -/
def readValue : Nat → Nat → List Char → Except ReadFault (Json × List Char)
  | 0, _, _ => .error .malformed
  | fuel + 1, depth, cs =>
    match cs, depth with
    | '"' :: rest, _ => do
      let (s, rest) ← readString rest
      return (.string s, rest)
    | '[' :: _, 0 | '\x7b' :: _, 0 => .error .tooDeep
    | '[' :: rest, depth + 1 =>
      match skipSpace rest with
      | ']' :: rest => .ok (.array [], rest)
      | rest => do
        let (xs, rest) ← readItems fuel depth rest
        return (.array xs, rest)
    | '\x7b' :: rest, depth + 1 =>
      match skipSpace rest with
      | '\x7d' :: rest => .ok (.object [], rest)
      | rest => do
        let (ms, rest) ← readMembers fuel depth [] rest
        return (.object ms, rest)
    | _, _ => readScalar cs

/-- The items of a list, from the first one to the closing bracket. -/
def readItems : Nat → Nat → List Char → Except ReadFault (List Json × List Char)
  | 0, _, _ => .error .malformed
  | fuel + 1, depth, cs => do
    let (x, rest) ← readValue fuel depth cs
    match skipSpace rest with
    | ']' :: rest => return ([x], rest)
    | ',' :: rest =>
      let (xs, rest) ← readItems fuel depth (skipSpace rest)
      return (x :: xs, rest)
    | _ => .error .malformed

/-- The members of an object after those in `members`, to the closing brace. -/
def readMembers :
    Nat → Nat → List (Text × Json) → List Char →
      Except ReadFault (List (Text × Json) × List Char)
  | 0, _, _, _ => .error .malformed
  | fuel + 1, depth, members, cs =>
    match cs with
    | '"' :: rest => do
      let (name, rest) ← readString rest
      match skipSpace rest with
      | ':' :: rest =>
        let (x, rest) ← readValue fuel depth (skipSpace rest)
        let members := insert members name x
        match skipSpace rest with
        | '\x7d' :: rest => return (members, rest)
        | ',' :: rest => readMembers fuel depth members (skipSpace rest)
        | _ => .error .malformed
      | _ => .error .malformed
    | _ => .error .malformed

end

def parse (s : String) : Except ReadFault Json := do
  let cs := s.toList
  let (x, rest) ← readValue (2 * cs.length + 2) maxDepth (skipSpace cs)
  if (skipSpace rest).isEmpty then return x else throw .malformed

end LabelPress.Json
