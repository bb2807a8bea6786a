import LabelPress.Text.Digit.Table

/-!
# Decimal digits of any script

The value of a decimal digit, whatever script it is written in.
-/

namespace LabelPress.Text

/-- Whether a character is one of the ASCII digits `0` to `9`. -/
def isAsciiDigit (c : Char) : Bool :=
  '0' ≤ c && c ≤ '9'

def asciiDigitValue (c : Char) : Nat :=
  c.toNat - 48

def digitChar (n : Nat) : Char :=
  Char.ofNat (48 + n)

def digitValue? (c : Char) : Option Nat :=
  if isAsciiDigit c then some (asciiDigitValue c)
  else if c.toNat < 128 then none
  else (scriptZeros.find? fun z => z ≤ c.toNat && c.toNat ≤ z + 9).map (c.toNat - ·)

theorem isAsciiDigit_digitChar : ∀ n < 10, isAsciiDigit (digitChar n) = true := by decide

end LabelPress.Text
