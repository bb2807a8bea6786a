import LabelPress.Json.Printer
import LabelPress.Json.Reader
import LabelPress.Proofs.Charset.Utf8
import LabelPress.Proofs.Text.Whole
import Mathlib.Tactic.Ring

/-!
# Strings in JSON

A string is written in 16-bit units, so two halves of a pair that stand side by side in a text come
back as one character (`Text.joined`). Nothing else changes (`readString_stringChars`), and the
joined text is written in the same way as the text (`stringChars_joined`). A whole text has no
halves, and comes back as it is.
-/

namespace LabelPress

/-- The 16-bit units of a code point: one, or two of a character beyond them. -/
def CodePoint.units : CodePoint → List Nat
  | .char c =>
    if c.toNat < 0x10000 then [c.toNat]
    else [0xd800 + (c.toNat - 0x10000) / 0x400, 0xdc00 + (c.toNat - 0x10000) % 0x400]
  | .half h => [0xd800 + h]

def Text.units (t : Text) : List Nat :=
  t.points.flatMap (·.units)

/-- The text with halves of a pair joined where they meet. -/
def Text.joined (t : Text) : Text := ⟨Json.assemble t.units⟩

/-! ## Units and code points -/

namespace CodePoint

open Charset (code_valid)

theorem units_small {c : Char} (h : c.toNat < 0x10000) : (char c).units = [c.toNat] :=
  if_pos h

/-- A character beyond the first plane is two units, the halves of a pair. -/
theorem units_large {c : Char} (h : ¬ c.toNat < 0x10000) :
    (char c).units =
      [0xd800 + (c.toNat - 0x10000) / 0x400, 0xdc00 + (c.toNat - 0x10000) % 0x400] :=
  if_neg h

/-- A unit has sixteen bits. -/
theorem units_lt (p : CodePoint) : ∀ u ∈ p.units, u < 0x10000 := by
  intro u hu
  cases p with
  | half h =>
    rw [units, List.mem_singleton] at hu
    omega
  | char c =>
    have hvalid := code_valid c
    simp only [units] at hu
    split at hu
    · rw [List.mem_singleton] at hu
      omega
    · simp only [List.mem_cons, List.not_mem_nil, or_false] at hu
      omega

/-- A number below the limit that is no half of a pair is the number of a character. -/
theorem isValidChar_of_lt {n : Nat} (h : n < 0x110000) (hhalf : n < 0xd800 ∨ 0xdfff < n) :
    n.isValidChar := by
  rcases hhalf with hlow | hhigh
  · exact .inl hlow
  · exact .inr ⟨hhigh, h⟩

/-- A number of 16 bits is the only unit of its code point. -/
theorem units_ofCode {n : Nat} (h : n < 0x10000) : (ofCode n).units = [n] := by
  have hchar (hhalf : n < 0xd800 ∨ 0xdfff < n) : (char (Char.ofNat n)).units = [n] := by
    have hcode := Text.toNat_ofNat (isValidChar_of_lt (by omega) hhalf)
    rw [units, hcode, if_pos h]
  unfold ofCode
  split
  · split
    · have hcode : 0xd800 + (n - 0xd800) = n := by omega
      simp only [units, hcode]
    · exact hchar (by omega)
  · exact hchar (by omega)

/-- The units of the character made of two halves are these halves. -/
theorem units_pairChar {m n : Nat} (hm : Json.isHighUnit m = true) (hn : Json.isLowUnit n = true) :
    (char (Json.pairChar m n)).units = [m, n] := by
  simp only [Json.isHighUnit, Json.isLowUnit, Bool.and_eq_true, decide_eq_true_eq] at hm hn
  have hcode := Text.toNat_ofNat (n := 0x10000 + (m - 0xd800) * 0x400 + (n - 0xdc00))
    (isValidChar_of_lt (by omega) (by omega))
  have hhigh : 0xd800 + (0x10000 + (m - 0xd800) * 0x400 + (n - 0xdc00) - 0x10000) / 0x400 = m := by
    omega
  have hlow : 0xdc00 + (0x10000 + (m - 0xd800) * 0x400 + (n - 0xdc00) - 0x10000) % 0x400 = n := by
    omega
  rw [units, Json.pairChar, hcode, if_neg (by omega), hhigh, hlow]

/-- A code point with a single unit is the one of that number. -/
theorem eq_ofCode {p : CodePoint} {n : Nat} (h : p.units = [n]) : p = ofCode n := by
  cases p with
  | half k =>
    obtain rfl : 0xd800 + k.val = n := (List.cons.inj h).1
    have hk : 0xd800 + k.val - 0xd800 = k.val := by omega
    unfold ofCode
    rw [if_pos (by omega), dif_pos (by omega)]
    simp only [hk]
  | char c =>
    have hvalid := code_valid c
    simp only [units] at h
    split at h
    · obtain rfl : c.toNat = n := (List.cons.inj h).1
      unfold ofCode
      rw [Char.ofNat_toNat]
      split
      · rw [dif_neg (by omega)]
      · rfl
    · simp at h

end CodePoint

namespace Text

/-- Assembling units loses none of them. -/
theorem flatMap_units_assemble {us : List Nat} (h : ∀ u ∈ us, u < 0x10000) :
    (Json.assemble us).flatMap (·.units) = us := by
  -- the cases of assembling: nothing, one unit, a pair, and a unit that makes no pair
  fun_induction Json.assemble us with
  | case1 => rfl
  | case2 n =>
    rw [List.flatMap_singleton, CodePoint.units_ofCode (h n List.mem_cons_self)]
  | case3 m n ns hpair ih =>
    rw [Bool.and_eq_true] at hpair
    rw [List.flatMap_cons, CodePoint.units_pairChar hpair.1 hpair.2,
      ih fun u hu => h u (by simp [hu])]
    rfl
  | case4 m n ns _ ih =>
    rw [List.flatMap_cons, CodePoint.units_ofCode (h m List.mem_cons_self),
      ih fun u hu => h u (List.mem_cons_of_mem m hu)]
    rfl

theorem units_lt (t : Text) : ∀ u ∈ t.units, u < 0x10000 := by
  intro u hu
  obtain ⟨p, -, hp⟩ := List.mem_flatMap.1 hu
  exact p.units_lt u hp

@[simp] theorem units_joined (t : Text) : t.joined.units = t.units :=
  flatMap_units_assemble t.units_lt

theorem joined_joined (t : Text) : t.joined.joined = t.joined :=
  congrArg (fun us => Text.mk (Json.assemble us)) t.units_joined

/-- Joining makes no text empty. -/
theorem isEmpty_joined (t : Text) : t.joined.isEmpty = t.isEmpty := by
  have hunits (u : Text) : u.isEmpty = u.units.isEmpty := by
    obtain ⟨_ | ⟨p, ps⟩⟩ := u
    · rfl
    · have hne : p.units ≠ [] := by
        cases p with
        | half h => exact List.cons_ne_nil _ _
        | char c =>
          simp only [CodePoint.units]
          split <;> exact List.cons_ne_nil _ _
      obtain ⟨u, us, hu⟩ := List.exists_cons_of_ne_nil hne
      simp [isEmpty, units, hu]
  rw [hunits, units_joined, ← hunits]

/-- A unit that begins no pair stands for itself. -/
theorem assemble_cons {m : Nat} (h : Json.isHighUnit m = false) (us : List Nat) :
    Json.assemble (m :: us) = .ofCode m :: Json.assemble us := by
  cases us with
  | nil => rfl
  | cons n us => rw [Json.assemble, h, Bool.false_and, if_neg Bool.false_ne_true]

/-- A whole text has nothing to join. -/
theorem joined_of_isWhole {t : Text} (h : t.IsWhole) : t.joined = t := by
  obtain ⟨cs, rfl⟩ := h.eq_ofChars
  unfold joined
  congr 1
  induction cs with
  | nil => rfl
  | cons c cs ih =>
    have hrest : Json.assemble (ofChars cs).units = cs.map .char := ih (isWhole_ofChars cs)
    have hunits : (ofChars (c :: cs)).units = (CodePoint.char c).units ++ (ofChars cs).units := rfl
    have hvalid := Charset.code_valid c
    rw [hunits, List.map_cons, ← hrest]
    by_cases hc : c.toNat < 0x10000
    · have hone := CodePoint.units_small hc
      have hno : Json.isHighUnit c.toNat = false := by
        simp only [Json.isHighUnit, Bool.and_eq_false_iff, decide_eq_false_iff_not]
        omega
      rw [hone, List.singleton_append, assemble_cons hno, ← CodePoint.eq_ofCode hone]
    · -- two units, which make the pair of the character
      have hcode : 0x10000 + (c.toNat - 0x10000) / 0x400 * 0x400 + (c.toNat - 0x10000) % 0x400 =
          c.toNat := by omega
      have hmeet : (Json.isHighUnit (0xd800 + (c.toNat - 0x10000) / 0x400) &&
          Json.isLowUnit (0xdc00 + (c.toNat - 0x10000) % 0x400)) = true := by
        simp only [Json.isHighUnit, Json.isLowUnit, Bool.and_eq_true, decide_eq_true_eq]
        omega
      rw [CodePoint.units_large hc, List.cons_append, List.singleton_append, Json.assemble, if_pos hmeet, Json.pairChar,
        Nat.add_sub_cancel_left, Nat.add_sub_cancel_left, hcode, Char.ofNat_toNat]

end Text

/-! ## Strings as they are written -/

namespace Json

open Text (hexNumber? hexDigits)

/-- Digits behind others count as a number of so many places. -/
theorem foldl_hexDigits (width a n : Nat) :
    (hexDigits width n).foldl
        (fun acc c => do return 16 * (← acc) + (← Text.hexValue? c)) (some a) =
      some (a * 16 ^ width + n % 16 ^ width) := by
  -- induction on the number of digits; the value read so far is carried along
  induction width generalizing a with
  | zero => simp [hexDigits, Nat.mod_one]
  | succ width ih =>
    have hdigit : Text.hexValue? (Text.hexDigit (n / Nat.pow 16 width % 16)) =
        some (n / Nat.pow 16 width % 16) :=
      Text.hexValue?_hexDigit _ (Nat.mod_lt _ (by decide))
    rw [hexDigits, List.foldl_cons, hdigit]
    refine (ih _).trans (congrArg some ?_)
    have hpow : Nat.pow 16 width = 16 ^ width := rfl
    rw [hpow, Nat.pow_succ, Nat.mod_mul]
    ring

theorem hexNumber?_hexDigits {n : Nat} (h : n < 0x10000) : hexNumber? (hexDigits 4 n) = some n := by
  refine (foldl_hexDigits 4 0 n).trans ?_
  rw [Nat.zero_mul, Nat.zero_add, Nat.mod_eq_of_lt (by omega)]

/-- A unit written with its number is read as that unit. -/
theorem readCodes_unitEscape {n : Nat} (h : n < 0x10000) (rest : List Char) :
    readCodes (unitEscape n ++ rest) = prepend n <$> readCodes rest := by
  have hnumber := hexNumber?_hexDigits h
  unfold unitEscape
  simp only [hexDigits, List.cons_append, List.nil_append] at hnumber ⊢
  rw [readCodes, hnumber]

/-- A character with a short escape is read from it. -/
theorem readCodes_simple {c x : Char} (hu : c ≠ 'u') (hx : simpleEscape? c = some x)
    (rest : List Char) : readCodes ('\\' :: c :: rest) = prepend x.toNat <$> readCodes rest := by
  rw [readCodes, hx]
  intro _ _ _ _ _ h
  exact absurd h hu

/-- A character that stands for itself is read as itself. -/
theorem readCodes_plain {c : Char} (hquote : c ≠ '"') (hescape : c ≠ '\\') (hc : ' ' ≤ c)
    (rest : List Char) : readCodes (c :: rest) = prepend c.toNat <$> readCodes rest := by
  rw [readCodes, if_neg (Char.not_lt.2 hc)]
  · exact hquote
  · intro _ _ _ _ _ h
    exact absurd h hescape
  · intro _ _ h
    exact absurd h hescape

/-- The ways in which a character is written inside a string. -/
inductive Written (c : Char) : List Char → Prop
  | simple {x : Char} (hx : simpleEscape? x = some c) (hu : x ≠ 'u') (hc : c.toNat < 0x10000) :
    Written c ['\\', x]
  | plain (hquote : c ≠ '"') (hescape : c ≠ '\\') (hspace : ' ' ≤ c) (hc : c.toNat < 0x10000) :
    Written c [c]
  | unit (hc : c.toNat < 0x10000) : Written c (unitEscape c.toNat)
  | pair (hc : ¬ c.toNat < 0x10000) :
    Written c (unitEscape (0xd800 + (c.toNat - 0x10000) / 0x400) ++
      unitEscape (0xdc00 + (c.toNat - 0x10000) % 0x400))

/-- The writer uses one of the three ways for every character. -/
theorem written_escapeChar (c : Char) : Written c (escapeChar c) := by
  unfold escapeChar
  by_cases hquote : (c == '"') = true
  · obtain rfl := beq_iff_eq.1 hquote
    exact .simple (by decide) (by decide) (by decide)
  rw [if_neg hquote]
  by_cases hescape : (c == '\\') = true
  · obtain rfl := beq_iff_eq.1 hescape
    exact .simple (by decide) (by decide) (by decide)
  rw [if_neg hescape]
  -- the short escapes in the order of the writer; what is left is printed, or written by its number
  split
  · next h =>
    obtain rfl := beq_iff_eq.1 h
    exact .simple (by decide) (by decide) (by decide)
  split
  · next h =>
    obtain rfl := beq_iff_eq.1 h
    exact .simple (by decide) (by decide) (by decide)
  split
  · next h =>
    obtain rfl := beq_iff_eq.1 h
    exact .simple (by decide) (by decide) (by decide)
  split
  · next h =>
    obtain rfl := beq_iff_eq.1 h
    exact .simple (by decide) (by decide) (by decide)
  split
  · next h =>
    obtain rfl := beq_iff_eq.1 h
    exact .simple (by decide) (by decide) (by decide)
  split
  · next h =>
    simp only [Bool.and_eq_true, decide_eq_true_eq] at h
    have hlast : c.toNat ≤ 126 := h.2
    exact .plain (by simpa using hquote) (by simpa using hescape) h.1 (by omega)
  split
  · next h => exact .unit h
  · next h => exact .pair h

/-- What follows a code point in a string is read behind its units. -/
theorem readCodes_escapePoint (p : CodePoint) (rest : List Char) :
    readCodes (escapePoint p ++ rest) =
      (fun r => (p.units ++ r.1, r.2)) <$> readCodes rest := by
  cases p with
  | half h => exact readCodes_unitEscape (by omega) rest
  | char c =>
    have hvalid := Charset.code_valid c
    have hwritten := written_escapeChar c
    rw [show escapePoint (.char c) = escapeChar c from rfl]
    -- which of the ways the writer took does not matter any more
    generalize escapeChar c = cs at hwritten
    cases hwritten with
    | simple hx hu hc =>
      rw [CodePoint.units_small hc]
      exact readCodes_simple hu hx rest
    | plain hquote hescape hspace hc =>
      rw [CodePoint.units_small hc]
      exact readCodes_plain hquote hescape hspace rest
    | unit hc =>
      rw [CodePoint.units_small hc]
      exact readCodes_unitEscape hc rest
    | pair hc =>
      rw [CodePoint.units_large hc, List.append_assoc, readCodes_unitEscape (by omega), readCodes_unitEscape (by omega)]
      cases readCodes rest <;> rfl

/-- The units of a text are read back up to the closing quote. -/
theorem readCodes_points (ps : List CodePoint) (rest : List Char) :
    readCodes (ps.flatMap escapePoint ++ '"' :: rest) = .ok (ps.flatMap (·.units), rest) := by
  induction ps with
  | nil => rfl
  | cons p ps ih =>
    rw [List.flatMap_cons, List.append_assoc, readCodes_escapePoint, ih]
    rfl

/-- A string is read as the text that was written, with halves joined. -/
theorem readString_stringChars (t : Text) (rest : List Char) :
    readString (t.points.flatMap escapePoint ++ '"' :: rest) = .ok (t.joined, rest) := by
  unfold readString
  rw [readCodes_points]
  rfl

/-- A lone half of a pair is written with its number. -/
theorem escapePoint_half {n : Nat} (hlow : 0xd800 ≤ n) (hhigh : n < 0xe000) :
    escapePoint (.ofCode n) = unitEscape n := by
  have hcode : 0xd800 + (n - 0xd800) = n := by omega
  unfold CodePoint.ofCode
  rw [if_pos hlow, dif_pos (by omega)]
  simp only [escapePoint, hcode]

/-- A code point is written unit by unit. -/
theorem escapePoint_eq (p : CodePoint) :
    escapePoint p = p.units.flatMap fun n => escapePoint (.ofCode n) := by
  have hone {n : Nat} (h : p.units = [n]) :
      escapePoint p = p.units.flatMap fun n => escapePoint (.ofCode n) := by
    rw [h, List.flatMap_singleton, ← CodePoint.eq_ofCode h]
  cases p with
  | half h => exact hone rfl
  | char c =>
    by_cases hc : c.toNat < 0x10000
    · exact hone (CodePoint.units_small hc)
    · have hvalid := Charset.code_valid c
      have hwritten := written_escapeChar c
      rw [CodePoint.units_large hc, show escapePoint (.char c) = escapeChar c from rfl,
        List.flatMap_cons, List.flatMap_singleton, escapePoint_half (by omega) (by omega),
        escapePoint_half (by omega) (by omega)]
      generalize escapeChar c = cs at hwritten
      -- a character of two units is written in the last way only
      cases hwritten with
      | pair => rfl
      | simple _ _ h | plain _ _ _ h | unit h => exact absurd h hc

/-- Joining halves does not change how a text is written. -/
theorem stringChars_joined (t : Text) : stringChars t.joined = stringChars t := by
  have hunits (u : Text) : u.points.flatMap escapePoint =
      u.units.flatMap fun n => escapePoint (.ofCode n) := by
    unfold Text.units
    rw [List.flatMap_assoc]
    exact congrArg (List.flatMap · u.points) (funext escapePoint_eq)
  unfold stringChars
  rw [hunits, Text.units_joined, ← hunits]

end Json

end LabelPress
