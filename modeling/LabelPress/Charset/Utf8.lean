import LabelPress.Charset.Basic

/-!
# UTF-8

Bytes as characters, with the reason why a sequence is refused. An overlong form, half of a
surrogate pair and a code beyond U+10FFFF are refused at their second byte.
-/

namespace LabelPress.Charset

def isContinuation (b : UInt8) : Bool :=
  0x80 ≤ b && b < 0xc0

/-- The second byte of a character of three bytes that starts with `a`. -/
def isSecondOfThree (a b : UInt8) : Bool :=
  isContinuation b && !(a == 0xe0 && b < 0xa0) && !(a == 0xed && 0xa0 ≤ b)

/-- The second byte of a character of four bytes that starts with `a`. -/
def isSecondOfFour (a b : UInt8) : Bool :=
  isContinuation b && !(a == 0xf0 && b < 0x90) && !(a == 0xf4 && 0x90 ≤ b)

/-- The six bits that a continuation byte adds to a code. -/
def addBits (code : Nat) (b : UInt8) : Nat :=
  code * 64 + (b.toNat - 0x80)

def decodeUtf8 : List UInt8 → Except DecodeFault (List Char)
  | [] => .ok []
  | a :: bs =>
    if a < 0x80 then (Char.ofNat a.toNat :: ·) <$> decodeUtf8 bs
    else if a < 0xc2 then .error .invalidStart
    else if a < 0xe0 then
      match bs with
      | [] => .error .truncated
      | b :: bs =>
        if isContinuation b then
          (Char.ofNat (addBits (a.toNat - 0xc0) b) :: ·) <$> decodeUtf8 bs
        else .error .invalidContinuation
    else if a < 0xf0 then
      match bs with
      | [] => .error .truncated
      | b :: bs =>
        if isSecondOfThree a b then
          match bs with
          | [] => .error .truncated
          | c :: bs =>
            if isContinuation c then
              (Char.ofNat (addBits (addBits (a.toNat - 0xe0) b) c) :: ·) <$> decodeUtf8 bs
            else .error .invalidContinuation
        else .error .invalidContinuation
    else if a < 0xf5 then
      match bs with
      | [] => .error .truncated
      | b :: bs =>
        if isSecondOfFour a b then
          match bs with
          | [] => .error .truncated
          | c :: bs =>
            if isContinuation c then
              match bs with
              | [] => .error .truncated
              | d :: bs =>
                if isContinuation d then
                  (Char.ofNat (addBits (addBits (addBits (a.toNat - 0xf0) b) c) d) :: ·) <$>
                    decodeUtf8 bs
                else .error .invalidContinuation
            else .error .invalidContinuation
        else .error .invalidContinuation
    else .error .invalidStart

def encodeUtf8 (cs : List Char) : List UInt8 :=
  cs.flatMap String.utf8EncodeChar

end LabelPress.Charset
