/-!
# Texts

A text is a row of code points. A code point is a character, or one half of a pair of 16-bit units
that stands alone: JSON can write such a half, and so can a character set with escapes. A half is
no character and has no bytes, but it counts, compares and is quoted like one.
-/

namespace LabelPress

inductive CodePoint where
  | char (c : Char)
  /-- One of the halves of pairs, U+D800 to U+DFFF, by its distance from the first. -/
  | half (h : Fin 0x800)
  deriving DecidableEq, Repr

namespace CodePoint

def code : CodePoint → Nat
  | .char c => c.toNat
  | .half h => 0xd800 + h

/-- The code point of a number; a number that is too large has none and gives NUL. -/
def ofCode (n : Nat) : CodePoint :=
  if 0xd800 ≤ n then
    if h : n - 0xd800 < 0x800 then .half ⟨n - 0xd800, h⟩ else .char (Char.ofNat n)
  else .char (Char.ofNat n)

/-- The character that a code point is, if it is one. -/
def char? : CodePoint → Option Char
  | .char c => some c
  | .half _ => none

/-- A condition on characters, which no half meets. -/
def meets (p : Char → Bool) : CodePoint → Bool
  | .char c => p c
  | .half _ => false

theorem char?_char (c : Char) : (char c).char? = some c := rfl

end CodePoint

structure Text where
  points : List CodePoint
  deriving DecidableEq, Repr

namespace Text

def empty : Text := ⟨[]⟩

instance : Inhabited Text := ⟨empty⟩

def ofChars (cs : List Char) : Text := ⟨cs.map .char⟩

def ofString (s : String) : Text := ofChars s.toList

instance : Coe String Text := ⟨ofString⟩

instance : Append Text := ⟨fun s t => ⟨s.points ++ t.points⟩⟩

def singleton (p : CodePoint) : Text := ⟨[p]⟩

def isEmpty (t : Text) : Bool :=
  t.points.isEmpty

def length (t : Text) : Nat :=
  t.points.length

/-- The characters of a text, if it has no halves. -/
def chars? (t : Text) : Option (List Char) :=
  t.points.mapM (·.char?)

/-- The text as a string, if it has no halves. -/
def string? (t : Text) : Option String :=
  t.chars?.map String.ofList

/-- The text as a string in which U+FFFD stands for every half. -/
def toString (t : Text) : String :=
  String.ofList (t.points.map fun p => p.char?.getD '\ufffd')

instance : ToString Text := ⟨toString⟩

/-- The order of texts, code point by code point. -/
instance : LT Text := ⟨fun s t => s.points.map (·.code) < t.points.map (·.code)⟩

instance (s t : Text) : Decidable (s < t) :=
  inferInstanceAs (Decidable (s.points.map (·.code) < t.points.map (·.code)))

def contains (t : Text) (c : Char) : Bool :=
  t.points.contains (.char c)

/-- The first code points. -/
def take (n : Nat) (t : Text) : Text := ⟨t.points.take n⟩

/-- The text after the first code points. -/
def drop (n : Nat) (t : Text) : Text := ⟨t.points.drop n⟩

/-- Texts one after another with a text between any two of them. -/
def intercalate (separator : Text) (ts : List Text) : Text :=
  ⟨separator.points.intercalate (ts.map (·.points))⟩

def splitOn (t : Text) (c : Char) : List Text :=
  (t.points.splitOn (.char c)).map (⟨·⟩)

theorem chars?_ofChars (cs : List Char) : (ofChars cs).chars? = some cs := by
  induction cs with
  | nil => rfl
  | cons c cs ih =>
    have hc : (CodePoint.char c).char? = some c := rfl
    simp only [chars?, ofChars, List.map_cons, List.mapM_cons] at ih ⊢
    rw [ih, hc]
    rfl

theorem length_ofChars (cs : List Char) : (ofChars cs).length = cs.length := by
  simp [length, ofChars]

end Text

end LabelPress
