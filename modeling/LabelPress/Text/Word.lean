import LabelPress.Text.Basic
import LabelPress.Text.Capital
import LabelPress.Text.Word.Table

/-!
# Words and letters of either case

Which code points words are made of, and which stand for each other where case does not matter.
-/

namespace LabelPress.Text

/-- Whether a code is a letter or a digit of any script, or the underscore. -/
def isWordCode (n : Nat) : Bool :=
  if n < 0x80 then (Char.ofNat n).isAlphanum || n == 0x5f
  else wordRanges.any fun (first, last) => first ≤ n && n ≤ last

/--
Runs `(first, last, distance)` of characters that have no single capital of their own and stand for
the character that lies `distance` after them where case does not matter.
-/
def foldRuns : List (Nat × Nat × Int) := [
  (0x130, 0x130, -231), (0x3f4, 0x3f4, -92), (0x1e9e, 0x1e9e, -7615), (0x1f88, 0x1f8f, -8),
  (0x1f98, 0x1f9f, -8), (0x1fa8, 0x1faf, -8), (0x1fbc, 0x1fbc, -9), (0x1fcc, 0x1fcc, -9),
  (0x1fd3, 0x1fd3, -7235), (0x1fe3, 0x1fe3, -7219), (0x1ffc, 0x1ffc, -9),
  (0x2126, 0x2126, -7549), (0x212a, 0x212a, -8415), (0x212b, 0x212b, -8294),
  (0xfb06, 0xfb06, -1)]

/-- The code that stands for a code and its other cases. -/
def foldCode (n : Nat) : Nat :=
  if n < 0x80 then if 0x61 ≤ n && n ≤ 0x7a then n - 32 else n
  else
    match foldRuns.find? fun (first, last, _) => first ≤ n && n ≤ last with
    | some (_, _, distance) => (n + distance).toNat
    | none => (capitalOfRun? n).getD n

/-- The codes that might have the same other cases as a code. -/
def caseCandidates (n : Nat) : List Nat :=
  let key : Int := foldCode n
  key.toNat :: (key + 32).toNat ::
    (capitalRuns.map fun (_, _, _, distance) => (key - distance).toNat) ++
    (foldRuns.map fun (_, _, distance) => (key - distance).toNat)

/-- The codes that stand for each other with a code where case does not matter. -/
def caseVariants (n : Nat) : List Nat :=
  n :: (caseCandidates n).filter fun m => foldCode m == foldCode n

end LabelPress.Text
