import LabelPress.Charset.Basic
import LabelPress.Text.Basic
import LabelPress.Text.Hex

/-!
# Latin-1 with escapes

The character set in which a character beyond Latin-1 is written as `\u` with four or `\U` with
eight hexadecimal digits. Halves of pairs are written so too, and two of them stay apart. A
backslash before anything else, another backslash included, stands for itself together with what
follows.
-/

namespace LabelPress.Charset

open Text (hexDigits hexNumber?)

/-- The character of an escape with these digits. -/
def escapeCode (long : Bool) (digits : List UInt8) : Except DecodeFault CodePoint :=
  match hexNumber? (digits.map fun b => Char.ofNat b.toNat) with
  | none => .error (.truncatedEscape long)
  | some n =>
    if 0x10ffff < n then .error .escapeOutOfRange
    else .ok (.ofCode n)

/-- The code point of a byte that is no part of an escape. -/
def plainPoint (b : UInt8) : CodePoint :=
  .char (Char.ofNat b.toNat)

def decodeEscaped : List UInt8 → Except DecodeFault (List CodePoint)
  | [] => .ok []
  | 0x5c :: 0x75 :: a :: b :: c :: d :: bs => do
    return (← escapeCode false [a, b, c, d]) :: (← decodeEscaped bs)
  | 0x5c :: 0x75 :: _ => .error (.truncatedEscape false)
  | 0x5c :: 0x55 :: a :: b :: c :: d :: e :: f :: g :: h :: bs => do
    return (← escapeCode true [a, b, c, d, e, f, g, h]) :: (← decodeEscaped bs)
  | 0x5c :: 0x55 :: _ => .error (.truncatedEscape true)
  | 0x5c :: b :: bs => ([.char '\\', plainPoint b] ++ ·) <$> decodeEscaped bs
  | b :: bs => (plainPoint b :: ·) <$> decodeEscaped bs

/-- The bytes of a run of ASCII characters. -/
def asciiBytes (cs : List Char) : List UInt8 :=
  cs.map fun c => c.toNat.toUInt8

def encodeEscaped (cs : List Char) : List UInt8 :=
  cs.flatMap fun c =>
    let n := c.toNat
    if n < 0x100 then [n.toUInt8]
    else if n < 0x10000 then asciiBytes ('\\' :: 'u' :: hexDigits 4 n)
    else asciiBytes ('\\' :: 'U' :: hexDigits 8 n)

end LabelPress.Charset
