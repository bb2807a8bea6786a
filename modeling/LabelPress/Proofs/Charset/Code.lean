import LabelPress.Charset.Codec
import LabelPress.Proofs.Charset.Utf8

/-!
# The bytes of single characters

Every character set writes a text character by character, so what it writes is known from the bytes
of single characters (`encode?_cons`). In all sets without escapes these bytes are of one of two
kinds (`code_cases`): an ASCII character is its own byte, and any other character consists of bytes
from 0x80 on. A reader that looks for ASCII characters in the bytes therefore never finds one inside
another character. What is written reads back (`decode_encode`).
-/

namespace LabelPress.Charset

/-! ## A text is written character by character -/

/-- What is written of a list is what is written of its first entry and then of the others. -/
theorem mapM_cons_eq_some {A B : Type} {f : A → Option B} {a : A} {as : List A} {bs : List B} :
    (a :: as).mapM f = some bs ↔
      ∃ code rest, [a].mapM f = some code ∧ as.mapM f = some rest ∧ bs = code ++ rest := by
  rw [List.mapM_cons, List.mapM_cons, List.mapM_nil]
  cases f a with
  | none => simp
  | some b =>
    cases as.mapM f with
    | none => simp
    | some rest => simp [eq_comm]

/-- The bytes of a text are those of its first character and then those of the others. -/
theorem encode?_cons {set : Charset} {c : Char} {cs : List Char} {bs : List UInt8} :
    set.encode? (c :: cs) = some bs ↔
      ∃ code rest, set.encode? [c] = some code ∧ set.encode? cs = some rest ∧
        bs = code ++ rest := by
  cases set with
  | utf8 => simp [encode?, encodeUtf8, eq_comm]
  | escapedUnicode => simp [encode?, encodeEscaped, eq_comm]
  | latin1 | ascii | windows1252 | latin9 | codePage437 =>
    simp only [encode?, encodeBelow?, Page.encode?]
    exact mapM_cons_eq_some

theorem encode?_nil (set : Charset) : set.encode? [] = some [] := by
  cases set <;> rfl

/-- Texts in a row are written in a row. -/
theorem encode?_append {set : Charset} {cs ds : List Char} {bs es : List UInt8}
    (hcs : set.encode? cs = some bs) (hds : set.encode? ds = some es) :
    set.encode? (cs ++ ds) = some (bs ++ es) := by
  induction cs generalizing bs with
  | nil =>
    rw [encode?_nil, Option.some.injEq] at hcs
    subst hcs
    exact hds
  | cons c cs ih =>
    obtain ⟨code, rest, hcode, hrest, rfl⟩ := encode?_cons.1 hcs
    rw [List.cons_append, List.append_assoc]
    exact encode?_cons.2 ⟨code, rest ++ es, hcode, ih hrest, rfl⟩

/-! ## The two kinds of characters -/

/-- The bytes of a character: itself if it is ASCII, and otherwise none that is. -/
def IsCodeOf (c : Char) (code : List UInt8) : Prop :=
  (c.toNat < 0x80 ∧ code = [c.toNat.toUInt8]) ∨
    (0x80 ≤ c.toNat ∧ code ≠ [] ∧ ∀ b ∈ code, 0x80 ≤ b.toNat)

theorem toNat_toUInt8 {n : Nat} (h : n < 256) : n.toUInt8.toNat = n :=
  toNat_ofNat_byte h

/-- In UTF-8 every byte of a character beyond ASCII is one from 0x80 on. -/
theorem isCodeOf_encodeChar (c : Char) : IsCodeOf c (String.utf8EncodeChar c) := by
  have hval : c.val.toNat = c.toNat := rfl
  unfold String.utf8EncodeChar
  simp only [hval]
  split
  · next h => exact Or.inl ⟨by omega, rfl⟩
  refine Or.inr ⟨by omega, ?_⟩
  -- every byte of a longer sequence is a sum with 0x80 at least
  have hsum : ∀ n, n < 128 → 0x80 ≤ (UInt8.ofNat (n + 128)).toNat := fun n hn => by
    rw [toNat_ofNat_byte (by omega)]
    omega
  split
  · simp only [List.mem_cons, List.not_mem_nil, or_false, ne_eq, reduceCtorEq,
      not_false_eq_true, forall_eq_or_imp, forall_eq, true_and]
    exact ⟨hsum (_ + 64) (by omega), hsum _ (by omega)⟩
  split
  · simp only [List.mem_cons, List.not_mem_nil, or_false, ne_eq, reduceCtorEq,
      not_false_eq_true, forall_eq_or_imp, forall_eq, true_and]
    exact ⟨hsum (_ + 96) (by omega), hsum _ (by omega), hsum _ (by omega)⟩
  · simp only [List.mem_cons, List.not_mem_nil, or_false, ne_eq, reduceCtorEq,
      not_false_eq_true, forall_eq_or_imp, forall_eq, true_and]
    exact ⟨hsum (_ + 112) (by omega), hsum _ (by omega), hsum _ (by omega), hsum _ (by omega)⟩

/-- A byte that a page gives for a character beyond ASCII stands for this character there. -/
theorem Page.byte?_eq_some {p : Page} {code n : Nat} (h : p.byte? code = some n) :
    0x80 ≤ n ∧ n < 0x100 ∧ p.code? n = some code := by
  obtain ⟨i, hi, rfl⟩ := Option.map_eq_some_iff.1 h
  have hlt := List.mem_range.1 (List.mem_of_find?_eq_some hi)
  have hcode := List.find?_some hi
  exact ⟨by omega, by omega, by simpa using hcode⟩

/-- The bytes of a page for one character. -/
theorem Page.encode?_singleton {p : Page} {c : Char} {code : List UInt8}
    (h : p.encode? [c] = some code) :
    (c.toNat < 0x80 ∧ code = [c.toNat.toUInt8]) ∨
      ∃ n, 0x80 ≤ c.toNat ∧ 0x80 ≤ n ∧ n < 0x100 ∧ p.code? n = some c.toNat ∧
        code = [n.toUInt8] := by
  rw [Page.encode?, List.mapM_cons, List.mapM_nil] at h
  split at h
  · next hc =>
    simp only [Option.pure_def, Option.bind_eq_bind, Option.bind_some, Option.some.injEq] at h
    exact Or.inl ⟨hc, h.symm⟩
  · next hc =>
    -- the byte was looked for among those beyond ASCII
    cases hn : p.byte? c.toNat with
    | none => simp [hn] at h
    | some n =>
      simp only [hn, Option.map_some, Option.pure_def, Option.bind_eq_bind, Option.bind_some,
        Option.some.injEq] at h
      obtain ⟨hlow, hhigh, hcode⟩ := byte?_eq_some hn
      exact Or.inr ⟨n, by omega, hlow, hhigh, hcode, h.symm⟩

/-- A code page that keeps ASCII writes any other character with a byte from 0x80 on. -/
theorem isCodeOf_page {p : Page} {c : Char} {code : List UInt8} (h : p.encode? [c] = some code) :
    IsCodeOf c code := by
  rcases Page.encode?_singleton h with hascii | ⟨n, hc, hlow, hhigh, -, rfl⟩
  · exact Or.inl hascii
  · refine Or.inr ⟨hc, by simp, ?_⟩
    intro b hb
    rw [List.mem_singleton.1 hb, toNat_toUInt8 hhigh]
    exact hlow

/-- A set that ends at a bound writes a character below it as the byte of its number. -/
theorem encodeBelow?_singleton {bound : Nat} {c : Char} {code : List UInt8}
    (h : encodeBelow? bound [c] = some code) : c.toNat < bound ∧ code = [c.toNat.toUInt8] := by
  rw [encodeBelow?, List.mapM_cons, List.mapM_nil] at h
  split at h
  · next hc =>
    simp only [Option.pure_def, Option.bind_eq_bind, Option.bind_some, Option.some.injEq] at h
    exact ⟨hc, h.symm⟩
  · simp at h

/-- Below a bound of one byte this is of one of the two kinds. -/
theorem isCodeOf_below {bound : Nat} {c : Char} {code : List UInt8} (hbound : bound ≤ 0x100)
    (h : encodeBelow? bound [c] = some code) : IsCodeOf c code := by
  obtain ⟨hc, rfl⟩ := encodeBelow?_singleton h
  by_cases hascii : c.toNat < 0x80
  · exact Or.inl ⟨hascii, rfl⟩
  · refine Or.inr ⟨by omega, by simp, ?_⟩
    intro b hb
    rw [List.mem_singleton.1 hb, toNat_toUInt8 (by omega)]
    omega

/-- In a set without escapes an ASCII character is its own byte, and no byte of another character
is an ASCII one. -/
theorem code_cases {set : Charset} (hset : set ≠ .escapedUnicode) {c : Char} {code : List UInt8}
    (h : set.encode? [c] = some code) : IsCodeOf c code := by
  cases set with
  | utf8 =>
    simp only [encode?, encodeUtf8, List.flatMap_cons, List.flatMap_nil, List.append_nil,
      Option.some.injEq] at h
    exact h ▸ isCodeOf_encodeChar c
  | latin1 => exact isCodeOf_below (by decide) h
  | ascii => exact isCodeOf_below (by decide) h
  | windows1252 => exact isCodeOf_page h
  | latin9 => exact isCodeOf_page h
  | codePage437 => exact isCodeOf_page h
  | escapedUnicode => exact absurd rfl hset

/-! ## Reading back -/

/-- A text with one more character in front. -/
def consChar (c : Char) (t : Text) : Text := ⟨.char c :: t.points⟩

/-- The byte of an ASCII character is an ASCII byte. -/
theorem byte_lt_of_ascii {c : Char} (hc : c.toNat < 0x80) : c.toNat.toUInt8 < 0x80 := by
  rw [UInt8.lt_iff_toNat_lt, toNat_toUInt8 (by omega)]
  exact hc

theorem map_ofChars_cons (c : Char) (x : Except DecodeFault (List Char)) :
    Text.ofChars <$> ((c :: ·) <$> x) = consChar c <$> (Text.ofChars <$> x) := by
  cases x <;> rfl

/-- The byte that a code page writes for a character is read as that character. -/
theorem Page.decode_code_append {p : Page} {c : Char} {code : List UInt8}
    (h : p.encode? [c] = some code) (rest : List UInt8) :
    p.decode (code ++ rest) = (c :: ·) <$> p.decode rest := by
  have hback : Char.ofNat c.toNat = c := Char.ofNat_toNat c
  rcases encode?_singleton h with ⟨hc, rfl⟩ | ⟨n, hc, hlow, hhigh, hcode, rfl⟩
  · have hbyte := toNat_toUInt8 (n := c.toNat) (by omega)
    rw [List.singleton_append, Page.decode, if_pos (byte_lt_of_ascii hc), hbyte]
    simp only [hback]
  · have hbyte := toNat_toUInt8 hhigh
    have hlt : ¬ n.toUInt8 < 0x80 := by
      rw [UInt8.lt_iff_toNat_lt, hbyte]
      exact Nat.not_lt.2 hlow
    rw [List.singleton_append, Page.decode, if_neg hlt, hbyte, hcode]
    simp only [hback]

/-- What is written for a character is read as this character, whatever follows. -/
theorem decode_code_append {set : Charset} (hset : set ≠ .escapedUnicode) {c : Char}
    {code : List UInt8} (h : set.encode? [c] = some code) (rest : List UInt8) :
    set.decode (code ++ rest) = consChar c <$> set.decode rest := by
  have hback : Char.ofNat c.toNat = c := Char.ofNat_toNat c
  -- in every set the code of a character is as long as its first byte says, so it is read on its
  -- own
  cases set with
  | utf8 =>
    simp only [encode?, encodeUtf8, List.flatMap_cons, List.flatMap_nil, List.append_nil,
      Option.some.injEq] at h
    rw [← h, decode, decode, decodeUtf8_encodeChar, map_ofChars_cons]
  | latin1 =>
    obtain ⟨hc, rfl⟩ := encodeBelow?_singleton h
    rw [decode, decode, List.singleton_append, List.map_cons, toNat_toUInt8 hc, hback]
    rfl
  | ascii =>
    obtain ⟨hc, rfl⟩ := encodeBelow?_singleton h
    have hbyte := toNat_toUInt8 (n := c.toNat) (by omega)
    rw [decode, decode, List.singleton_append, decodeAscii, if_pos (byte_lt_of_ascii hc), hbyte,
      hback, map_ofChars_cons]
  | windows1252 => rw [decode, decode, Page.decode_code_append h, map_ofChars_cons]
  | latin9 => rw [decode, decode, Page.decode_code_append h, map_ofChars_cons]
  | codePage437 => rw [decode, decode, Page.decode_code_append h, map_ofChars_cons]
  | escapedUnicode => exact absurd rfl hset

/-- What a set without escapes writes for a text is read as this text. -/
theorem decode_encode {set : Charset} (hset : set ≠ .escapedUnicode) {cs : List Char}
    {bs : List UInt8} (h : set.encode? cs = some bs) : set.decode bs = .ok (.ofChars cs) := by
  induction cs generalizing bs with
  | nil =>
    rw [encode?_nil, Option.some.injEq] at h
    subst h
    exact decode_nil set
  | cons c cs ih =>
    obtain ⟨code, rest, hcode, hrest, rfl⟩ := encode?_cons.1 h
    rw [decode_code_append hset hcode, ih hrest]
    rfl

/-! ## The codec of a set -/

/-- The codec of a set reads exactly what the set reads. -/
theorem codec_decode_eq_ok {set : Charset} {bytes : List UInt8} {t : Text} :
    set.codec.decode bytes = .ok t ↔ set.decode bytes = .ok t := by
  show (set.decode bytes).mapError _ = _ ↔ _
  cases set.decode bytes with
  | error x =>
    refine iff_of_false ?_ ?_
    · rintro ⟨⟩
    · rintro ⟨⟩
  | ok u =>
    constructor
    · rintro ⟨⟩
      rfl
    · rintro ⟨⟩
      rfl

/-- The codec of a set never fails by itself. -/
theorem codec_decode_eq_error {set : Charset} {bytes : List UInt8} {fault : CodecFault} :
    set.codec.decode bytes = .error fault ↔
      ∃ x, set.decode bytes = .error x ∧ fault = .refused x.reason := by
  show (set.decode bytes).mapError _ = _ ↔ _
  cases set.decode bytes with
  | ok u =>
    refine iff_of_false ?_ ?_
    · rintro ⟨⟩
    · rintro ⟨_, ⟨⟩, _⟩
  | error x =>
    constructor
    · rintro ⟨⟩
      exact ⟨x, rfl, rfl⟩
    · rintro ⟨_, ⟨⟩, rfl⟩
      rfl

/-- The codec of a set writes exactly what the set writes. -/
theorem codec_encode_eq_ok {set : Charset} {cs : List Char} {bs : List UInt8} :
    set.codec.encode cs = .ok bs ↔ set.encode? cs = some bs := by
  simp only [codec]
  cases set.encode? cs <;> simp

end LabelPress.Charset
