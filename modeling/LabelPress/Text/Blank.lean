import LabelPress.Text.Basic

/-!
# Blank characters

The characters that count as white space in text: the spaces, the line breaks and the control
characters that separate records. `trim` takes them away at both ends, and nothing in between.
-/

namespace LabelPress.Text

/-- Whether a character is white space. The zero-width space U+200B is not. -/
def isBlank (c : Char) : Bool :=
  let n := c.toNat
  (0x09 ≤ n && n ≤ 0x0d) || (0x1c ≤ n && n ≤ 0x20) || n == 0x85 || n == 0xa0 || n == 0x1680 ||
    (0x2000 ≤ n && n ≤ 0x200a) || n == 0x2028 || n == 0x2029 || n == 0x202f || n == 0x205f ||
    n == 0x3000

/-- What stands between the first and the last item that fails `p`. -/
def trimBoth {A : Type} (p : A → Bool) (xs : List A) : List A :=
  ((xs.dropWhile p).reverse.dropWhile p).reverse

/-- A text without its leading and trailing white space. -/
def trim (t : Text) : Text :=
  ⟨trimBoth (·.meets isBlank) t.points⟩

theorem isBlank_space : isBlank ' ' = true := rfl

theorem trim_empty : trim empty = empty := rfl

end LabelPress.Text
