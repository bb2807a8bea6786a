import LabelPress.Text.Basic
import LabelPress.Text.Hex
import LabelPress.Text.Printable.Table

/-!
# Quoted text

How a message shows a text that it was given: between single quotes, or between double quotes if
the text holds a single quote and no double quote, with escapes for the quote, the backslash and
every character without a visible form.
-/

namespace LabelPress.Text

/-- Whether a character has a visible form; of the separators only the plain space has one. -/
def isPrintable (c : Char) : Bool :=
  let n := c.toNat
  if n < 0x7f then 0x20 ≤ n else !invisibleRanges.any fun (first, last) => first ≤ n && n ≤ last

/-- The quote character that goes around a text. -/
def quoteFor (t : Text) : Char :=
  if t.contains '\'' && !t.contains '"' then '"' else '\''

/-- One character as it stands between quotes `q`. -/
def escape (q c : Char) : List Char :=
  if c == q || c == '\\' then ['\\', c]
  else if c == '\n' then ['\\', 'n']
  else if c == '\r' then ['\\', 'r']
  else if c == '\t' then ['\\', 't']
  else if isPrintable c then [c]
  else if c.toNat < 0x100 then '\\' :: 'x' :: hexDigits 2 c.toNat
  else if c.toNat < 0x10000 then '\\' :: 'u' :: hexDigits 4 c.toNat
  else '\\' :: 'U' :: hexDigits 8 c.toNat

/-- One code point as it stands between quotes `q`. -/
def escapePoint (q : Char) : CodePoint → List Char
  | .char c => escape q c
  | .half h => '\\' :: 'u' :: hexDigits 4 (0xd800 + h)

def quoteChars (t : Text) : List Char :=
  let q := quoteFor t
  q :: t.points.flatMap (escapePoint q) ++ [q]

def quote (t : Text) : String :=
  String.ofList (quoteChars t)

end LabelPress.Text
