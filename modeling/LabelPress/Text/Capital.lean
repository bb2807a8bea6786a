import LabelPress.Text.Basic
import LabelPress.Text.Capital.Table

/-!
# Capital letters

`upper` writes every character of a text as its capital, by the full mapping of the character
standard: one character may become several (`ß` becomes `SS`).
-/

namespace LabelPress.Text

/-- The single capital of a character beyond ASCII, if a run of the table has one. -/
def capitalOfRun? (n : Nat) : Option Nat :=
  capitalRuns.findSome? fun (first, last, step, distance) =>
    if first ≤ n && n ≤ last && (n - first) % step == 0 then some (n + distance).toNat else none

def upperChar (c : Char) : List Char :=
  if c.toNat < 128 then
    if 'a' ≤ c ∧ c ≤ 'z' then [Char.ofNat (c.toNat - 32)] else [c]
  else
    match capitalTexts.find? (·.1 == c.toNat) with
    | some (_, ns) => ns.map Char.ofNat
    | none =>
      match capitalOfRun? c.toNat with
      | some n => [Char.ofNat n]
      | none => [c]

/-- The capital form of one code point. -/
def upperPoint : CodePoint → List CodePoint
  | .char c => (upperChar c).map .char
  | .half h => [.half h]

def upper (t : Text) : Text :=
  ⟨t.points.flatMap upperPoint⟩

theorem upper_empty : upper empty = empty := rfl

theorem points_upper_append (s t : Text) :
    (upper (s ++ t)).points = (upper s).points ++ (upper t).points :=
  List.flatMap_append

/-- An ASCII character has a single capital. -/
theorem length_upperChar {c : Char} (h : c.toNat < 128) : (upperChar c).length = 1 := by
  unfold upperChar
  rw [if_pos h]
  split <;> rfl

end LabelPress.Text
