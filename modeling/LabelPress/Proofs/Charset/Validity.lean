import LabelPress.Proofs.Charset.Code
import LabelPress.Proofs.Text.Whole

/-!
# Which bytes are UTF-8

`IsUtf8` says it without a decoder: the bytes are those of some characters. The decoder reads these
characters and refuses all other bytes (`decodeUtf8_eq_ok_iff`).

Bytes can be judged in parts wherever the second part does not begin with a continuation byte, since
no sequence reaches over such a place (`isUtf8_append_iff`). An ASCII byte in front can be left out
(`isUtf8_cons_iff`); inside, only if no continuation byte stands behind it.
-/

namespace LabelPress.Charset

/-- The bytes are those of some characters. -/
def IsUtf8 (bytes : List UInt8) : Prop :=
  ∃ cs, bytes = encodeUtf8 cs

theorem encodeUtf8_cons (c : Char) (cs : List Char) :
    encodeUtf8 (c :: cs) = String.utf8EncodeChar c ++ encodeUtf8 cs :=
  List.flatMap_cons

theorem encodeUtf8_append (cs ds : List Char) :
    encodeUtf8 (cs ++ ds) = encodeUtf8 cs ++ encodeUtf8 ds :=
  List.flatMap_append

/-! ## The decoder reads these bytes and no others -/

theorem ofNat_eq_of_toNat {n : Nat} {b : UInt8} (h : n = b.toNat) : UInt8.ofNat n = b := by
  subst h
  exact UInt8.ofNat_toNat

/-- The character of one byte is written as this byte. -/
theorem encodeChar_one {a : UInt8} (ha : a.toNat < 0x80) :
    String.utf8EncodeChar (Char.ofNat a.toNat) = [a] := by
  have hcode : (Char.ofNat a.toNat).val.toNat = a.toNat := Text.toNat_ofNat (Or.inl (by omega))
  unfold String.utf8EncodeChar
  simp only [hcode]
  rw [if_pos (by omega), ofNat_eq_of_toNat rfl]

/-- The character of two bytes is written as these bytes. -/
theorem encodeChar_two {a b : UInt8} (ha : 0xc2 ≤ a.toNat ∧ a.toNat < 0xe0)
    (hb : 0x80 ≤ b.toNat ∧ b.toNat < 0xc0) :
    String.utf8EncodeChar (Char.ofNat (addBits (a.toNat - 0xc0) b)) = [a, b] := by
  have hcode : (Char.ofNat (addBits (a.toNat - 0xc0) b)).val.toNat =
      (a.toNat - 0xc0) * 64 + (b.toNat - 0x80) :=
    Text.toNat_ofNat (Or.inl (by unfold addBits; omega))
  unfold String.utf8EncodeChar
  simp only [hcode]
  rw [if_neg (by omega), if_pos (by omega), ofNat_eq_of_toNat (b := a) (by omega),
    ofNat_eq_of_toNat (b := b) (by omega)]

/-- The character of three bytes is written as these bytes. -/
theorem encodeChar_three {a b c : UInt8} (ha : 0xe0 ≤ a.toNat ∧ a.toNat < 0xf0)
    (hb : isSecondOfThree a b = true) (hc : 0x80 ≤ c.toNat ∧ c.toNat < 0xc0) :
    String.utf8EncodeChar (Char.ofNat (addBits (addBits (a.toNat - 0xe0) b) c)) = [a, b, c] := by
  obtain ⟨hb, hlow, hhalf⟩ := (isSecondOfThree_iff a b).1 hb
  have hcode : (Char.ofNat (addBits (addBits (a.toNat - 0xe0) b) c)).val.toNat =
      ((a.toNat - 0xe0) * 64 + (b.toNat - 0x80)) * 64 + (c.toNat - 0x80) := by
    -- the second byte keeps the code off the halves of pairs
    refine Text.toNat_ofNat ?_
    show addBits (addBits _ b) c < 0xd800 ∨ 0xdfff < addBits (addBits _ b) c ∧ _
    unfold addBits
    omega
  unfold String.utf8EncodeChar
  simp only [hcode]
  rw [if_neg (by omega), if_neg (by omega), if_pos (by omega),
    ofNat_eq_of_toNat (b := a) (by omega), ofNat_eq_of_toNat (b := b) (by omega),
    ofNat_eq_of_toNat (b := c) (by omega)]

/-- The character of four bytes is written as these bytes. -/
theorem encodeChar_four {a b c d : UInt8} (ha : 0xf0 ≤ a.toNat ∧ a.toNat < 0xf5)
    (hb : isSecondOfFour a b = true) (hc : 0x80 ≤ c.toNat ∧ c.toNat < 0xc0)
    (hd : 0x80 ≤ d.toNat ∧ d.toNat < 0xc0) :
    String.utf8EncodeChar (Char.ofNat (addBits (addBits (addBits (a.toNat - 0xf0) b) c) d)) =
      [a, b, c, d] := by
  obtain ⟨hb, hlow, hhigh⟩ := (isSecondOfFour_iff a b).1 hb
  have hcode : (Char.ofNat (addBits (addBits (addBits (a.toNat - 0xf0) b) c) d)).val.toNat =
      (((a.toNat - 0xf0) * 64 + (b.toNat - 0x80)) * 64 + (c.toNat - 0x80)) * 64 +
        (d.toNat - 0x80) := by
    -- the second byte keeps the code below the largest one
    refine Text.toNat_ofNat (Or.inr ?_)
    unfold addBits
    omega
  unfold String.utf8EncodeChar
  simp only [hcode]
  rw [if_neg (by omega), if_neg (by omega), if_neg (by omega),
    ofNat_eq_of_toNat (b := a) (by omega), ofNat_eq_of_toNat (b := b) (by omega),
    ofNat_eq_of_toNat (b := c) (by omega), ofNat_eq_of_toNat (b := d) (by omega)]

/-- Characters with one more in front were read only if the others were. -/
theorem eq_ok_of_cons {x : Except DecodeFault (List Char)} {c : Char} {cs : List Char}
    (h : (c :: ·) <$> x = .ok cs) : ∃ ds, x = .ok ds ∧ cs = c :: ds := by
  cases x with
  | error fault => cases h
  | ok ds => exact ⟨ds, rfl, (Except.ok.inj h).symm⟩

/-- One more sequence, if what follows it is written back. -/
theorem encode_of_cons {x : Except DecodeFault (List Char)} {c : Char} {cs : List Char}
    {code rest : List UInt8} (h : (c :: ·) <$> x = .ok cs) (hcode : String.utf8EncodeChar c = code)
    (ih : ∀ ds, x = .ok ds → rest = encodeUtf8 ds) : code ++ rest = encodeUtf8 cs := by
  obtain ⟨ds, hds, rfl⟩ := eq_ok_of_cons h
  rw [encodeUtf8_cons, hcode, ih ds hds]

/-- Bytes that are read are those that are written for what was read. -/
theorem encode_of_decodeUtf8 {bytes : List UInt8} {cs : List Char}
    (h : decodeUtf8 bytes = .ok cs) : bytes = encodeUtf8 cs := by
  have toNat_lt {a b : UInt8} (h : a < b) : a.toNat < b.toNat := UInt8.lt_iff_toNat_lt.1 h
  have toNat_le {a b : UInt8} (h : ¬ a < b) : b.toNat ≤ a.toNat :=
    Nat.not_lt.1 fun hlt => h (UInt8.lt_iff_toNat_lt.2 hlt)
  -- by induction along the decoder, with one case for each length of a sequence
  fun_induction decodeUtf8 bytes generalizing cs with
  | case1 =>
    cases h
    rfl
  | case2 a rest ha ih => exact encode_of_cons h (encodeChar_one (toNat_lt ha)) fun _ => ih
  | case5 a hlow h2 ha b rest hb ih =>
    have ha : 0xc2 ≤ a.toNat ∧ a.toNat < 0xe0 := ⟨toNat_le h2, toNat_lt ha⟩
    exact encode_of_cons h (encodeChar_two ha ((isContinuation_iff b).1 hb)) fun _ => ih
  | case9 a h1 h2 h3 ha b hb c rest hc ih =>
    have ha : 0xe0 ≤ a.toNat ∧ a.toNat < 0xf0 := ⟨toNat_le h3, toNat_lt ha⟩
    exact encode_of_cons h (encodeChar_three ha hb ((isContinuation_iff c).1 hc)) fun _ => ih
  | case15 a h1 h2 h3 h4 ha b hb c hc d rest hd ih =>
    have ha : 0xf0 ≤ a.toNat ∧ a.toNat < 0xf5 := ⟨toNat_le h4, toNat_lt ha⟩
    exact encode_of_cons h (encodeChar_four ha hb ((isContinuation_iff c).1 hc)
      ((isContinuation_iff d).1 hd)) fun _ => ih
  | _ => cases h

theorem decodeUtf8_encode (cs : List Char) : decodeUtf8 (encodeUtf8 cs) = .ok cs := by
  induction cs with
  | nil => rfl
  | cons c cs ih =>
    rw [encodeUtf8_cons, decodeUtf8_encodeChar, ih]
    rfl

/-- The decoder reads the bytes of characters as these characters, and refuses all others. -/
theorem decodeUtf8_eq_ok_iff {bytes : List UInt8} {cs : List Char} :
    decodeUtf8 bytes = .ok cs ↔ bytes = encodeUtf8 cs := by
  refine ⟨encode_of_decodeUtf8, fun h => ?_⟩
  rw [h, decodeUtf8_encode]

/-! ## Judging bytes in parts -/

/-- The first byte of a character continues none, and all others do. -/
theorem encodeChar_eq_cons (c : Char) :
    ∃ a tail, String.utf8EncodeChar c = a :: tail ∧ isContinuation a = false ∧
      ∀ b ∈ tail, isContinuation b = true := by
  have hvalid := code_valid c
  have hval : c.val.toNat = c.toNat := rfl
  have hlead {n : Nat} (hlt : n < 256) (h : n < 0x80 ∨ 0xc0 ≤ n) :
      isContinuation (UInt8.ofNat n) = false := by
    rw [← Bool.not_eq_true, isContinuation_iff, toNat_ofNat_byte hlt]
    omega
  have hnext (n : Nat) : isContinuation (UInt8.ofNat (n % 64 + 128)) = true := by
    rw [isContinuation_iff, toNat_ofNat_byte (by omega)]
    omega
  -- four lengths; in each the lead byte is a large one and the others end in six bits below 0x80
  unfold String.utf8EncodeChar
  simp only [hval]
  split
  · exact ⟨_, [], rfl, hlead (by omega) (by omega), by simp⟩
  split
  · refine ⟨_, [_], rfl, hlead (by omega) (by omega), ?_⟩
    exact List.forall_mem_singleton.2 (hnext _)
  split
  · refine ⟨_, [_, _], rfl, hlead (by omega) (by omega), ?_⟩
    exact List.forall_mem_cons.2 ⟨hnext _, List.forall_mem_singleton.2 (hnext _)⟩
  · refine ⟨_, [_, _, _], rfl, hlead (by omega) (by omega), ?_⟩
    exact List.forall_mem_cons.2
      ⟨hnext _, List.forall_mem_cons.2 ⟨hnext _, List.forall_mem_singleton.2 (hnext _)⟩⟩

theorem isUtf8_nil : IsUtf8 [] := ⟨[], rfl⟩

theorem IsUtf8.append {front rest : List UInt8} (hfront : IsUtf8 front) (hrest : IsUtf8 rest) :
    IsUtf8 (front ++ rest) := by
  obtain ⟨cs, rfl⟩ := hfront
  obtain ⟨ds, rfl⟩ := hrest
  exact ⟨cs ++ ds, (encodeUtf8_append cs ds).symm⟩

/-- Bytes that are UTF-8 do not begin with a continuation byte. -/
theorem IsUtf8.head {bytes : List UInt8} (h : IsUtf8 bytes) :
    ∀ b ∈ bytes.head?, isContinuation b = false := by
  obtain ⟨cs, rfl⟩ := h
  cases cs with
  | nil => simp [encodeUtf8]
  | cons c cs =>
    obtain ⟨a, tail, hcode, ha, -⟩ := encodeChar_eq_cons c
    rw [encodeUtf8_cons, hcode, List.cons_append, List.head?_cons]
    rintro b ⟨⟩
    exact ha

/-- Where the second part does not begin with a continuation byte, the characters of a whole are
those of its parts. -/
theorem encode_eq_append {cs : List Char} {front rest : List UInt8}
    (h : encodeUtf8 cs = front ++ rest) (hrest : ∀ b ∈ rest.head?, isContinuation b = false) :
    IsUtf8 front ∧ IsUtf8 rest := by
  induction cs generalizing front with
  | nil =>
    obtain ⟨rfl, rfl⟩ := List.append_eq_nil_iff.1 h.symm
    exact ⟨isUtf8_nil, isUtf8_nil⟩
  | cons c cs ih =>
    obtain ⟨a, tail, hcode, -, htail⟩ := encodeChar_eq_cons c
    rw [encodeUtf8_cons] at h
    rcases List.append_eq_append_iff.1 h with ⟨more, rfl, hmore⟩ | ⟨more, hmore, rfl⟩
    · -- the first character lies in the first part
      obtain ⟨hmore, hrest⟩ := ih hmore
      exact ⟨IsUtf8.append ⟨[c], by simp [encodeUtf8]⟩ hmore, hrest⟩
    · rw [hcode] at hmore
      cases front with
      | nil => exact ⟨isUtf8_nil, c :: cs, by rw [encodeUtf8_cons, hcode, hmore]; rfl⟩
      | cons b front =>
        obtain ⟨rfl, rfl⟩ := List.cons.inj hmore
        cases more with
        | nil => exact ⟨⟨[c], by simp [encodeUtf8, hcode]⟩, cs, rfl⟩
        | cons d more =>
          -- otherwise the second part begins within the first character
          have hd : isContinuation d = true := htail d (by simp)
          have hd' : isContinuation d = false := hrest d rfl
          rw [hd] at hd'
          cases hd'

/-- Bytes may be parted in front of one that begins a character. -/
theorem isUtf8_append_iff {front rest : List UInt8}
    (hrest : ∀ b ∈ rest.head?, isContinuation b = false) :
    IsUtf8 (front ++ rest) ↔ IsUtf8 front ∧ IsUtf8 rest :=
  ⟨fun ⟨_, h⟩ => encode_eq_append h.symm hrest, fun ⟨hfront, hrest⟩ => hfront.append hrest⟩

/-- An ASCII byte continues nothing. -/
theorem isContinuation_of_ascii {b : UInt8} (hb : b.toNat < 0x80) : isContinuation b = false := by
  rw [← Bool.not_eq_true, isContinuation_iff]
  omega

/-- An ASCII byte in front does not matter. -/
theorem isUtf8_cons_iff {b : UInt8} {rest : List UInt8} (hb : b.toNat < 0x80) :
    IsUtf8 (b :: rest) ↔ IsUtf8 rest := by
  have hone : IsUtf8 [b] := ⟨[Char.ofNat b.toNat], by simp [encodeUtf8, encodeChar_one hb]⟩
  constructor
  · rintro ⟨cs, h⟩
    cases cs with
    | nil => cases h
    | cons c cs =>
      -- the first character is the one of this byte, since its code is an ASCII one
      obtain ⟨hc, hcode⟩ | ⟨-, hne, hhigh⟩ := isCodeOf_encodeChar c
      · rw [encodeUtf8_cons, hcode] at h
        exact ⟨cs, (List.cons.inj h).2⟩
      · obtain ⟨a, tail, hcode⟩ := List.exists_cons_of_ne_nil hne
        rw [encodeUtf8_cons, hcode, List.cons_append] at h
        have ha := hhigh a (by simp [hcode])
        rw [← (List.cons.inj h).1] at ha
        omega
  · exact fun h => hone.append h

/-- An ASCII byte can be left out where no continuation byte stands behind it. -/
theorem isUtf8_drop_iff {front rest : List UInt8} {b : UInt8} (hb : b.toNat < 0x80)
    (hrest : ∀ c ∈ rest.head?, isContinuation c = false) :
    IsUtf8 (front ++ b :: rest) ↔ IsUtf8 (front ++ rest) := by
  have hhead : ∀ c ∈ (b :: rest).head?, isContinuation c = false := by
    rintro c ⟨⟩
    exact isContinuation_of_ascii hb
  rw [isUtf8_append_iff hhead, isUtf8_cons_iff hb, isUtf8_append_iff hrest]

/-- Where it stands before a continuation byte, it tears a character. -/
theorem not_isUtf8_torn {front rest : List UInt8} {b c : UInt8} (hb : b.toNat < 0x80)
    (hc : isContinuation c = true) : ¬ IsUtf8 (front ++ b :: c :: rest) := by
  intro h
  have hhead : ∀ d ∈ (b :: c :: rest).head?, isContinuation d = false := by
    rintro d ⟨⟩
    exact isContinuation_of_ascii hb
  have hrest := (isUtf8_cons_iff hb).1 ((isUtf8_append_iff hhead).1 h).2
  have := hrest.head c rfl
  rw [hc] at this
  cases this

/-- Parts that each begin with a byte that continues nothing are judged one by one. -/
theorem isUtf8_flatten_iff {parts : List (List UInt8)}
    (h : ∀ part ∈ parts, ∀ b ∈ part.head?, isContinuation b = false) :
    IsUtf8 parts.flatten ↔ ∀ part ∈ parts, IsUtf8 part := by
  induction parts with
  | nil => simp [isUtf8_nil]
  | cons part parts ih =>
    rw [List.forall_mem_cons] at h
    have hhead : ∀ b ∈ parts.flatten.head?, isContinuation b = false := by
      intro b hb
      rw [List.head?_flatten] at hb
      obtain ⟨p, hp, hb⟩ := List.exists_of_findSome?_eq_some hb
      exact h.2 p hp b hb
    rw [List.flatten_cons, isUtf8_append_iff hhead, ih h.2, List.forall_mem_cons]

end LabelPress.Charset
