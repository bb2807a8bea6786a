/-!
# Character sets

The character sets in which a label may be written. In all of them an ASCII character is its own
byte, so that commands are found before anything is decoded.
-/

namespace LabelPress

inductive Charset where
  | utf8
  | latin1
  | ascii
  | windows1252
  | latin9
  | codePage437
  /-- Latin-1 with `\uXXXX` and `\UXXXXXXXX` for all other characters. -/
  | escapedUnicode
  deriving DecidableEq, Repr

namespace Charset

/-- Why bytes are no text in a character set. -/
inductive DecodeFault where
  | invalidStart
  | invalidContinuation
  | truncated
  | beyondAscii
  | undefinedByte
  /-- An escape with fewer than its four or eight digits. -/
  | truncatedEscape (long : Bool)
  | escapeOutOfRange
  deriving DecidableEq, Repr

def DecodeFault.reason : DecodeFault → String
  | .invalidStart => "invalid start byte"
  | .invalidContinuation => "invalid continuation byte"
  | .truncated => "unexpected end of data"
  | .beyondAscii => "ordinal not in range(128)"
  | .undefinedByte => "character maps to <undefined>"
  | .truncatedEscape false => "truncated \\uXXXX escape"
  | .truncatedEscape true => "truncated \\UXXXXXXXX escape"
  | .escapeOutOfRange => "\\Uxxxxxxxx out of range"

end Charset

end LabelPress
