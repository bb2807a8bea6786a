import LabelPress.Charset.Encoding
import LabelPress.Charset.Idna

/-!
# What the codec of domain names does not say

A codec can refuse what it is given, or it can fail by itself. The codec of domain names refuses bytes
only if one of them is not ASCII; whatever else it finds wrong with a label is a failure of the codec
(`failed_of_ascii`). A number in Punycode that is cut short is such a thing: as every digit nine asks
for another one behind it, no run of nines ends a number (`label_nines`).
-/

namespace LabelPress.Charset

variable {prepare : Idna.Preparation}

/-! ## Faults of labels -/

/-- A label is refused only for a byte beyond ASCII; otherwise the codec itself fails. -/
theorem Idna.refused_label {bytes : List UInt8} {reason : String}
    (h : label prepare bytes = .error (.refused reason)) : ∃ b ∈ bytes, 0x80 ≤ b := by
  unfold label at h
  split at h
  · next hbeyond =>
    obtain ⟨b, hb, hle⟩ := List.any_eq_true.1 hbeyond
    exact ⟨b, hb, by simpa using hle⟩
  · -- an ASCII label is read, or the codec fails
    split at h
    · cases h
    split at h
    · cases h
    simp only at h
    split at h
    · cases h
    split at h <;> cases h

theorem mem_of_mem_splitOn {A : Type} [BEq A] {a b : A} {bs l : List A} (hl : l ∈ bs.splitOn a)
    (hb : b ∈ l) : b ∈ bs := by
  induction bs generalizing l with
  | nil =>
    rw [List.splitOn_nil, List.mem_singleton] at hl
    exact hl ▸ hb
  | cons c bs ih =>
    rw [List.splitOn_cons_eq_if_modifyHead] at hl
    split at hl
    · rcases List.mem_cons.1 hl with rfl | hl
      · cases hb
      · exact List.mem_cons_of_mem c (ih hl hb)
    · -- the first part has one more item in front
      obtain ⟨first, rest, hparts⟩ := List.exists_cons_of_ne_nil (List.splitOn_ne_nil a bs)
      rw [hparts] at hl ih
      rcases List.mem_cons.1 hl with rfl | hl
      · rcases List.mem_cons.1 hb with rfl | hb
        · exact List.mem_cons_self
        · exact List.mem_cons_of_mem c (ih List.mem_cons_self hb)
      · exact List.mem_cons_of_mem c (ih (List.mem_cons_of_mem first hl) hb)

/-- A list is not translated because of one of its items. -/
theorem exists_of_mapM_error {A B E : Type} {f : A → Except E B} {as : List A} {e : E}
    (h : as.mapM f = .error e) : ∃ a ∈ as, f a = .error e := by
  induction as with
  | nil => cases h
  | cons a as ih =>
    rw [List.mapM_cons] at h
    -- the first entry that fails is the one whose error is given
    cases ha : f a with
    | error x =>
      rw [ha] at h
      cases h
      exact ⟨a, List.mem_cons_self, ha⟩
    | ok b =>
      rw [ha] at h
      cases hrest : as.mapM f with
      | error x =>
        rw [hrest] at h
        cases h
        obtain ⟨c, hc, hfault⟩ := ih hrest
        exact ⟨c, List.mem_cons_of_mem a hc, hfault⟩
      | ok bs =>
        rw [hrest] at h
        cases h

/-- ASCII bytes are never refused: what is wrong with them makes the codec fail. -/
theorem Idna.failed_of_ascii {bytes : List UInt8} {fault : CodecFault}
    (hascii : ∀ b ∈ bytes, b < 0x80) (h : (idna prepare).decode bytes = .error fault) :
    ∃ message, fault = .failed message := by
  have h' : decode prepare bytes = .error fault := h
  unfold decode at h'
  split at h'
  · cases h'
  · next x hx =>
    cases h'
    cases x with
    | failed message => exact ⟨_, rfl⟩
    | refused reason =>
      -- the label that was refused is a part of the bytes, so one of them is beyond ASCII
      obtain ⟨l, hl, hlabel⟩ := exists_of_mapM_error hx
      obtain ⟨b, hb, hbeyond⟩ := refused_label hlabel
      have hlt : b < 0x80 := hascii b (mem_of_mem_splitOn hl hb)
      exact absurd hbeyond (UInt8.not_le.2 hlt)

/-! ## Numbers that are cut short -/

theorem Punycode.threshold_le (bias j : Nat) : threshold bias j ≤ 26 := by
  unfold threshold
  omega

/-- A nine is never the last digit of a number. -/
theorem Punycode.number_nines (n bias j w : Nat) :
    number bias j w (List.replicate n 0x39) = .error "incomplete punicode string" := by
  induction n generalizing j w with
  | zero => rfl
  | succ n ih =>
    have hdigit : digit? 0x39 = some 35 := by decide
    have hle := threshold_le bias j
    rw [List.replicate_succ, number, hdigit]
    simp only [if_neg (show ¬ 35 < threshold bias j by omega), ih]
    rfl

/-- Digits that all ask for another one end before the number does. -/
theorem Punycode.decode_nines (n : Nat) :
    decode (List.replicate (n + 1) 0x39) = .error "incomplete punicode string" := by
  have htail : ((List.replicate (n + 1) (0x39 : UInt8)).reverse.takeWhile (· ≠ 0x2d)).reverse =
      List.replicate (n + 1) 0x39 := by
    simp
  unfold decode
  simp only [htail, Nat.sub_self, List.take_zero, List.dropLast_nil, List.map_nil]
  rw [putIn, if_neg (by simp [List.replicate_succ]), number_nines]

/-- What is wrong with a label whose number is cut short. -/
def Idna.cutShort : String :=
  "decoding with 'punycode' codec failed (UnicodeError: incomplete punicode string)"

/-- The same as the codec reports it. -/
def Idna.reportedCutShort : String :=
  s!"decoding with 'idna' codec failed (UnicodeError: {cutShort})"

/-- A label of nines in Punycode makes the codec fail, whatever plain label stands before it. -/
theorem Idna.decode_nines {front : List UInt8} (hpoint : point ∉ front)
    (hascii : front.any (0x80 ≤ ·) = false) (hplain : mark.isPrefixOf front = false) (n : Nat) :
    (idna prepare).decode (front ++ point :: (mark ++ List.replicate (n + 1) 0x39)) =
      .error (.failed reportedCutShort) := by
  have hfront : label prepare front = .ok (ofAscii front) := by
    unfold label
    rw [hascii, hplain]
    rfl
  have hlabel : label prepare (mark ++ List.replicate (n + 1) 0x39) = .error (.failed cutShort) := by
    have hnines : (mark ++ List.replicate (n + 1) 0x39).any (0x80 ≤ ·) = false := by
      simp [mark]
    have hmark : mark.isPrefixOf (mark ++ List.replicate (n + 1) 0x39) = true := by
      simp [List.isPrefixOf_iff_prefix]
    unfold label
    rw [hnines, hmark, List.drop_left, Punycode.decode_nines]
    rfl
  -- the nines are the last label, for there is no point in them
  have hsplit : (front ++ point :: (mark ++ List.replicate (n + 1) 0x39)).splitOn point =
      [front, mark ++ List.replicate (n + 1) 0x39] := by
    have hlast : point ∉ mark ++ List.replicate (n + 1) 0x39 := by
      simp [mark, point]
    rw [List.splitOn_append_cons_self_of_not_mem hpoint, List.splitOn_eq_singleton hlast]
  have hlabels : [front, mark ++ List.replicate (n + 1) 0x39].mapM (label prepare) =
      .error (.failed cutShort) := by
    rw [List.mapM_cons, hfront, List.mapM_cons, hlabel]
    rfl
  show decode prepare _ = _
  rw [decode, hsplit, hlabels]
  rfl

/-! ## The codec in the library -/

/-- The encoding of domain names, with the library that the program comes with. -/
def Idna.encoding : Encoding := ⟨"idna", idna unprepared⟩

theorem Idna.ofName_encoding : Encoding.ofName .standard "idna" = .ok encoding := by
  rfl

end LabelPress.Charset
