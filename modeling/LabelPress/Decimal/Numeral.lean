import LabelPress.Text.Digit

/-!
# Decimal numerals

Natural numbers in the ten ASCII digits: `numeral` writes one without leading zeros and `value`
reads a run of digits.
-/

namespace LabelPress.Decimal

open Text (digitChar asciiDigitValue isAsciiDigit)

/-- The decimal digits of a natural number, the highest first. -/
def numeral (n : Nat) : List Char :=
  if n < 10 then [digitChar n] else numeral (n / 10) ++ [digitChar (n % 10)]

/-- The number that a run of ASCII digits stands for. -/
def value (cs : List Char) : Nat :=
  cs.foldl (fun n c => 10 * n + asciiDigitValue c) 0

/-- The decimal digits of an integer, after a minus sign if it is negative. -/
def integer : Int → List Char
  | .ofNat n => numeral n
  | .negSucc n => '-' :: numeral (n + 1)

/-- A numeral with zeros in front, up to a width. -/
def padded (width n : Nat) : List Char :=
  List.replicate (width - (numeral n).length) '0' ++ numeral n

/-- A numeral is made of nothing but digits, by the recursion that writes it. -/
theorem isAsciiDigit_of_mem_numeral {n : Nat} {c : Char} (h : c ∈ numeral n) :
    isAsciiDigit c = true := by
  fun_induction numeral n with
  | case1 n hn =>
    simp only [List.mem_singleton] at h
    exact h ▸ Text.isAsciiDigit_digitChar n hn
  | case2 n _ ih =>
    simp only [List.mem_append, List.mem_singleton] at h
    rcases h with h | h
    · exact ih h
    · exact h ▸ Text.isAsciiDigit_digitChar _ (Nat.mod_lt _ (by decide))

end LabelPress.Decimal
