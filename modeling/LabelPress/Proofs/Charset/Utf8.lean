import LabelPress.Charset.Utf8

/-!
# UTF-8 reads back what it writes

The decoder works through a sequence of bytes by the value of each first byte. The first group of
lemmas says what it makes of a sequence of each length, with the conditions on the bytes as
inequalities between natural numbers; `decodeUtf8_encodeChar` then follows by cases on the range in
which the code of the character lies.
-/

namespace LabelPress.Charset

/-! ### What the decoder makes of one sequence -/

theorem not_lt_of_toNat_le {a b : UInt8} (h : b.toNat ≤ a.toNat) : ¬ a < b :=
  fun hlt => Nat.not_lt.2 h (UInt8.lt_iff_toNat_lt.1 hlt)

/-- The bytes that go on with a character are those from 0x80 to 0xbf. -/
theorem isContinuation_iff (b : UInt8) :
    isContinuation b = true ↔ 0x80 ≤ b.toNat ∧ b.toNat < 0xc0 := by
  simp [isContinuation, UInt8.le_iff_toNat_le, UInt8.lt_iff_toNat_lt]

/-- The second byte of three makes the code neither too short nor half of a pair. -/
theorem isSecondOfThree_iff (a b : UInt8) :
    isSecondOfThree a b = true ↔ (0x80 ≤ b.toNat ∧ b.toNat < 0xc0) ∧
      (a.toNat = 0xe0 → 0xa0 ≤ b.toNat) ∧ (a.toNat = 0xed → b.toNat < 0xa0) := by
  simp only [isSecondOfThree, isContinuation_iff, Bool.and_eq_true, Bool.not_eq_true',
    Bool.and_eq_false_iff, beq_eq_false_iff_ne, decide_eq_false_iff_not, ne_eq, UInt8.lt_iff_toNat_lt,
    UInt8.le_iff_toNat_le, ← UInt8.toNat_inj, UInt8.reduceToNat]
  omega

/-- The second byte of four makes the code neither too short nor too large. -/
theorem isSecondOfFour_iff (a b : UInt8) :
    isSecondOfFour a b = true ↔ (0x80 ≤ b.toNat ∧ b.toNat < 0xc0) ∧
      (a.toNat = 0xf0 → 0x90 ≤ b.toNat) ∧ (a.toNat = 0xf4 → b.toNat < 0x90) := by
  simp only [isSecondOfFour, isContinuation_iff, Bool.and_eq_true, Bool.not_eq_true',
    Bool.and_eq_false_iff, beq_eq_false_iff_ne, decide_eq_false_iff_not, ne_eq, UInt8.lt_iff_toNat_lt,
    UInt8.le_iff_toNat_le, ← UInt8.toNat_inj, UInt8.reduceToNat]
  omega

/-- An ASCII byte is a character. -/
theorem decodeUtf8_one {a : UInt8} (rest : List UInt8) (ha : a.toNat < 0x80) :
    decodeUtf8 (a :: rest) = (Char.ofNat a.toNat :: ·) <$> decodeUtf8 rest := by
  have ha' : a < 0x80 := UInt8.lt_iff_toNat_lt.2 ha
  rw [decodeUtf8.eq_def]
  simp only [if_pos ha']

/-- A lead byte with one that goes on is a character, unless a single byte would have done. -/
theorem decodeUtf8_two {a b : UInt8} (rest : List UInt8) (ha : 0xc2 ≤ a.toNat ∧ a.toNat < 0xe0)
    (hb : 0x80 ≤ b.toNat ∧ b.toNat < 0xc0) :
    decodeUtf8 (a :: b :: rest) =
      (Char.ofNat ((a.toNat - 0xc0) * 64 + (b.toNat - 0x80)) :: ·) <$> decodeUtf8 rest := by
  have h1 : ¬ a < 0x80 := not_lt_of_toNat_le (show 0x80 ≤ a.toNat by omega)
  have h2 : ¬ a < 0xc2 := not_lt_of_toNat_le (show 0xc2 ≤ a.toNat by omega)
  have h3 : a < 0xe0 := UInt8.lt_iff_toNat_lt.2 ha.2
  rw [decodeUtf8.eq_def]
  simp only [if_neg h1, if_neg h2, if_pos h3]
  rw [if_pos ((isContinuation_iff b).2 hb)]
  rfl

/-- A lead byte with two that go on is a character, unless fewer bytes would have done or it is half
of a pair. -/
theorem decodeUtf8_three {a b c : UInt8} (rest : List UInt8)
    (ha : 0xe0 ≤ a.toNat ∧ a.toNat < 0xf0) (hb : 0x80 ≤ b.toNat ∧ b.toNat < 0xc0)
    (hlow : a.toNat = 0xe0 → 0xa0 ≤ b.toNat) (hhalf : a.toNat = 0xed → b.toNat < 0xa0)
    (hc : 0x80 ≤ c.toNat ∧ c.toNat < 0xc0) :
    decodeUtf8 (a :: b :: c :: rest) =
      (Char.ofNat (((a.toNat - 0xe0) * 64 + (b.toNat - 0x80)) * 64 + (c.toNat - 0x80)) :: ·) <$>
        decodeUtf8 rest := by
  have h1 : ¬ a < 0x80 := not_lt_of_toNat_le (show 0x80 ≤ a.toNat by omega)
  have h2 : ¬ a < 0xc2 := not_lt_of_toNat_le (show 0xc2 ≤ a.toNat by omega)
  have h3 : ¬ a < 0xe0 := not_lt_of_toNat_le (show 0xe0 ≤ a.toNat by omega)
  have h4 : a < 0xf0 := UInt8.lt_iff_toNat_lt.2 ha.2
  -- the lead byte chooses the branch for three bytes
  rw [decodeUtf8.eq_def]
  simp only [if_neg h1, if_neg h2, if_neg h3, if_pos h4]
  rw [if_pos ((isSecondOfThree_iff a b).2 ⟨hb, hlow, hhalf⟩),
    if_pos ((isContinuation_iff c).2 hc)]
  rfl

/-- A lead byte with three that go on is a character, unless fewer bytes would have done or it lies
beyond the last one. -/
theorem decodeUtf8_four {a b c d : UInt8} (rest : List UInt8)
    (ha : 0xf0 ≤ a.toNat ∧ a.toNat < 0xf5) (hb : 0x80 ≤ b.toNat ∧ b.toNat < 0xc0)
    (hlow : a.toNat = 0xf0 → 0x90 ≤ b.toNat) (hhigh : a.toNat = 0xf4 → b.toNat < 0x90)
    (hc : 0x80 ≤ c.toNat ∧ c.toNat < 0xc0) (hd : 0x80 ≤ d.toNat ∧ d.toNat < 0xc0) :
    decodeUtf8 (a :: b :: c :: d :: rest) =
      (Char.ofNat ((((a.toNat - 0xf0) * 64 + (b.toNat - 0x80)) * 64 + (c.toNat - 0x80)) * 64 +
        (d.toNat - 0x80)) :: ·) <$> decodeUtf8 rest := by
  have h1 : ¬ a < 0x80 := not_lt_of_toNat_le (show 0x80 ≤ a.toNat by omega)
  have h2 : ¬ a < 0xc2 := not_lt_of_toNat_le (show 0xc2 ≤ a.toNat by omega)
  have h3 : ¬ a < 0xe0 := not_lt_of_toNat_le (show 0xe0 ≤ a.toNat by omega)
  have h4 : ¬ a < 0xf0 := not_lt_of_toNat_le (show 0xf0 ≤ a.toNat by omega)
  have h5 : a < 0xf5 := UInt8.lt_iff_toNat_lt.2 ha.2
  -- the lead byte chooses the branch for four bytes
  rw [decodeUtf8.eq_def]
  simp only [if_neg h1, if_neg h2, if_neg h3, if_neg h4, if_pos h5]
  rw [if_pos ((isSecondOfFour_iff a b).2 ⟨hb, hlow, hhigh⟩), if_pos ((isContinuation_iff c).2 hc),
    if_pos ((isContinuation_iff d).2 hd)]
  rfl

/-! ### One character and back -/

/-- The code of a character is beyond the halves of pairs or before them. -/
theorem code_valid (c : Char) : c.toNat < 0xd800 ∨ 0xdfff < c.toNat ∧ c.toNat < 0x110000 := by
  have := c.valid
  simpa [UInt32.isValidChar, Nat.isValidChar] using this

theorem toNat_ofNat_byte {n : Nat} (h : n < 256) : (UInt8.ofNat n).toNat = n := by
  simp [UInt8.toNat_ofNat', Nat.mod_eq_of_lt h]

/-- What is written for a character is read as this character, whatever follows. -/
theorem decodeUtf8_encodeChar (c : Char) (rest : List UInt8) :
    decodeUtf8 (String.utf8EncodeChar c ++ rest) = (c :: ·) <$> decodeUtf8 rest := by
  have hvalid := code_valid c
  have hback : Char.ofNat c.toNat = c := Char.ofNat_toNat c
  have hval : c.val.toNat = c.toNat := rfl
  unfold String.utf8EncodeChar
  simp only [hval]
  -- the four lengths of a sequence, each with the range of its codes
  split
  · next h1 =>
    have hbyte := toNat_ofNat_byte (n := c.toNat) (by omega)
    rw [List.singleton_append, decodeUtf8_one _ (by omega), hbyte, hback]
  split
  · next h1 h2 =>
    have ha := toNat_ofNat_byte (n := c.toNat / 64 % 32 + 192) (by omega)
    have hb := toNat_ofNat_byte (n := c.toNat % 64 + 128) (by omega)
    rw [List.cons_append, List.singleton_append, decodeUtf8_two _ (by omega) (by omega), ha, hb]
    rw [show (c.toNat / 64 % 32 + 192 - 0xc0) * 64 + (c.toNat % 64 + 128 - 0x80) = c.toNat by omega,
      hback]
  split
  · next h1 h2 h3 =>
    have ha := toNat_ofNat_byte (n := c.toNat / 4096 % 16 + 224) (by omega)
    have hb := toNat_ofNat_byte (n := c.toNat / 64 % 64 + 128) (by omega)
    have hc := toNat_ofNat_byte (n := c.toNat % 64 + 128) (by omega)
    rw [List.cons_append, List.cons_append, List.singleton_append,
      decodeUtf8_three _ (by omega) (by omega) (by omega) (by omega) (by omega), ha, hb, hc]
    rw [show ((c.toNat / 4096 % 16 + 224 - 0xe0) * 64 + (c.toNat / 64 % 64 + 128 - 0x80)) * 64 +
      (c.toNat % 64 + 128 - 0x80) = c.toNat by omega, hback]
  · next h1 h2 h3 =>
    have ha := toNat_ofNat_byte (n := c.toNat / 262144 % 8 + 240) (by omega)
    have hb := toNat_ofNat_byte (n := c.toNat / 4096 % 64 + 128) (by omega)
    have hc := toNat_ofNat_byte (n := c.toNat / 64 % 64 + 128) (by omega)
    have hd := toNat_ofNat_byte (n := c.toNat % 64 + 128) (by omega)
    rw [List.cons_append, List.cons_append, List.cons_append, List.singleton_append,
      decodeUtf8_four _ (by omega) (by omega) (by omega) (by omega) (by omega) (by omega),
      ha, hb, hc, hd]
    rw [show (((c.toNat / 262144 % 8 + 240 - 0xf0) * 64 + (c.toNat / 4096 % 64 + 128 - 0x80)) * 64 +
      (c.toNat / 64 % 64 + 128 - 0x80)) * 64 + (c.toNat % 64 + 128 - 0x80) = c.toNat by omega, hback]

end LabelPress.Charset
