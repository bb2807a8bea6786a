import LabelPress.Charset.Escaped
import LabelPress.Charset.Page
import LabelPress.Charset.Utf8
import LabelPress.Text.Basic

/-!
# Text and bytes

A codec is a pair of functions between characters and bytes. The character sets give one codec each
(`Charset.codec`); other codecs come from a library, about which only the laws of `Codec` are known.
-/

namespace LabelPress

/-- Why a codec does not translate what it is given. -/
inductive CodecFault where
  /-- What it is given is at fault, for the reason in words. -/
  | refused (reason : String)
  /-- The codec fails by itself and does not say on what. -/
  | failed (message : String)
  deriving DecidableEq, Repr

def CodecFault.words : CodecFault → String
  | .refused reason => reason
  | .failed message => message

/-- Bytes as text, and characters as bytes. -/
structure Codec where
  decode : List UInt8 → Except CodecFault Text
  encode : List Char → Except CodecFault (List UInt8)
  decode_nil : decode [] = .ok .empty
  /-- Bytes that begin with `^` or `~` are no empty text. -/
  decode_mark : ∀ {b : UInt8} {bs : List UInt8} {t : Text}, b = 0x5e ∨ b = 0x7e →
    decode (b :: bs) = .ok t → t ≠ .empty

/-- Codecs by the names under which they are known. Which names these are is up to the library. -/
abbrev Codec.Library := String → Option Codec

namespace Charset

def decodeAscii : List UInt8 → Except DecodeFault (List Char)
  | [] => .ok []
  | b :: bs =>
    if b < 0x80 then (Char.ofNat b.toNat :: ·) <$> decodeAscii bs else .error .beyondAscii

def encodeBelow? (bound : Nat) (cs : List Char) : Option (List UInt8) :=
  cs.mapM fun c => if c.toNat < bound then some c.toNat.toUInt8 else none

def decode (set : Charset) (bytes : List UInt8) : Except DecodeFault Text :=
  match set with
  | .utf8 => .ofChars <$> decodeUtf8 bytes
  | .latin1 => .ok (.ofChars (bytes.map fun b => Char.ofNat b.toNat))
  | .ascii => .ofChars <$> decodeAscii bytes
  | .windows1252 => .ofChars <$> windows1252Page.decode bytes
  | .latin9 => .ofChars <$> latin9Page.decode bytes
  | .codePage437 => .ofChars <$> codePage437Page.decode bytes
  | .escapedUnicode => Text.mk <$> decodeEscaped bytes

/-- The bytes of characters, if the set has all of them. -/
def encode? (set : Charset) (cs : List Char) : Option (List UInt8) :=
  match set with
  | .utf8 => some (encodeUtf8 cs)
  | .latin1 => encodeBelow? 0x100 cs
  | .ascii => encodeBelow? 0x80 cs
  | .windows1252 => windows1252Page.encode? cs
  | .latin9 => latin9Page.encode? cs
  | .codePage437 => codePage437Page.encode? cs
  | .escapedUnicode => some (encodeEscaped cs)

/-- Why a set refuses a character that it lacks. The sets that have all characters refuse none. -/
def lack : Charset → String
  | .latin1 => "ordinal not in range(256)"
  | .ascii => "ordinal not in range(128)"
  | .windows1252 | .latin9 | .codePage437 => "character maps to <undefined>"
  | .utf8 | .escapedUnicode => ""

/-! ### The laws of codecs -/

theorem decode_nil (set : Charset) : set.decode [] = .ok .empty := by
  cases set <;> rfl

theorem ofChars_cons_ne_empty (x : Except DecodeFault (List Char)) (c : Char) :
    Text.ofChars <$> ((c :: ·) <$> x) ≠ .ok .empty := by
  cases x <;> simp [Functor.map, Except.map, Text.ofChars, Text.empty]

/-- In all sets a text that begins with a mark is not empty. -/
theorem decode_mark {set : Charset} {b : UInt8} {bs : List UInt8} {t : Text}
    (hb : b = 0x5e ∨ b = 0x7e) (h : set.decode (b :: bs) = .ok t) : t ≠ .empty := by
  rintro rfl
  have hlt : b < 0x80 := by
    rcases hb with rfl | rfl <;> decide
  cases set with
  | utf8 =>
    rw [decode, decodeUtf8.eq_def] at h
    simp only [if_pos hlt] at h
    exact ofChars_cons_ne_empty _ _ h
  | latin1 => simp [decode, Text.ofChars, Text.empty] at h
  | ascii =>
    rw [decode, decodeAscii, if_pos hlt] at h
    exact ofChars_cons_ne_empty _ _ h
  | windows1252 | latin9 | codePage437 =>
    rw [decode, Page.decode, if_pos hlt] at h
    exact ofChars_cons_ne_empty _ _ h
  | escapedUnicode =>
    -- a mark begins no escape
    have hpoints : Text.mk <$> ((plainPoint b :: ·) <$> decodeEscaped bs) ≠ .ok .empty := by
      cases decodeEscaped bs <;> simp [Functor.map, Except.map, Text.empty]
    rcases hb with rfl | rfl
    · exact hpoints h
    · exact hpoints h

/-- The codec of a character set. It refuses bytes and characters and never fails by itself. -/
def codec (set : Charset) : Codec where
  decode bytes := (set.decode bytes).mapError fun fault => .refused fault.reason
  encode cs :=
    match set.encode? cs with
    | some bytes => .ok bytes
    | none => .error (.refused set.lack)
  decode_nil := by rw [decode_nil]; rfl
  decode_mark hb h := by
    revert h
    cases hdecode : set.decode _ with
    | error fault => exact fun h => nomatch h
    | ok t =>
      intro h
      cases h
      exact decode_mark hb hdecode

end Charset

end LabelPress
