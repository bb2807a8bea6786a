import LabelPress.Proofs.Charset.Validity
import LabelPress.Proofs.Input.Kept

/-!
# Characters torn by white space

White space is dropped before bytes are decoded. A character whose bytes have white space between
them is no UTF-8, but what is kept of it is: such bytes `IsTorn` are read without a fault, and give
a character that they do not contain (`readAll_torn`).

This is the only way in which bytes that are not UTF-8 are read. Dropping white space changes nothing
where no continuation byte stands behind it (`isUtf8_sift_iff`, along the bytes of one command), so
the bytes are UTF-8 piece by piece exactly if the kept ones are (`isUtf8_kept_iff`).
-/

namespace LabelPress.Input

open Charset (IsUtf8 isContinuation encodeUtf8)
open Cursor (inMemory)

/-- Behind the bytes that have been kept so far, white space that is dropped stands before a
continuation byte. -/
def Tears (kept : Array UInt8) (body : List UInt8) : Prop :=
  ∃ before s c after, body = before ++ s :: c :: after ∧ isSpace s = true ∧
    isFieldData (sift kept before) = false ∧ isContinuation c = true

/-- In one of the commands, white space that is dropped stands before a continuation byte. -/
def IsTorn (bytes : List UInt8) : Prop :=
  ∃ mark body, mark :: body ∈ pieces (bytes.dropWhile isSpace) ∧ Tears #[] body

/-- The bytes that are decoded. -/
def keptBytes (bytes : List UInt8) : List UInt8 :=
  ((pieces (bytes.dropWhile isSpace)).map kept).flatten

/-! ## Along one command -/

theorem toNat_of_isSpace {s : UInt8} (h : isSpace s = true) : s.toNat < 0x80 :=
  Script.toNat_lt_of_isSpace_byte h

/-- White space and the byte behind it, wherever they stand, show a tear. -/
theorem Tears.not_isUtf8 {kept : Array UInt8} {body : List UInt8} (h : Tears kept body) :
    ¬ IsUtf8 body := by
  obtain ⟨before, s, c, after, rfl, hs, -, hc⟩ := h
  exact Charset.not_isUtf8_torn (toNat_of_isSpace hs) hc

/-- A byte in front of what is torn keeps it torn, if cleaning keeps or drops the byte on its
own. -/
theorem Tears.cons {kept next : Array UInt8} {b : UInt8} {body : List UInt8}
    (hstep : ∀ before, sift kept (b :: before) = sift next before) (h : Tears next body) :
    Tears kept (b :: body) := by
  obtain ⟨before, s, c, after, rfl, hs, hfield, hc⟩ := h
  exact ⟨b :: before, s, c, after, rfl, hs, by rw [hstep, hfield], hc⟩

/-- If nothing is torn, dropping white space does not change whether the bytes are UTF-8. -/
theorem isUtf8_sift_iff {kept : Array UInt8} {body : List UInt8} (h : ¬ Tears kept body)
    (front : List UInt8) :
    IsUtf8 (front ++ (sift kept body).toList) ↔ IsUtf8 (front ++ (kept.toList ++ body)) := by
  -- by induction on the bytes, for everything that may have been kept before
  induction body generalizing kept with
  | nil => rw [sift, List.append_nil]
  | cons b body ih =>
    by_cases hdrop : (isSpace b && !isFieldData kept) = true
    · have hstep : ∀ before, sift kept (b :: before) = sift kept before := fun before => by
        rw [sift, if_pos hdrop]
      have hbody : ∀ c ∈ body.head?, isContinuation c = false := by
        intro c hc
        obtain ⟨after, rfl⟩ := List.head?_eq_some_iff.1 hc
        rw [← Bool.not_eq_true]
        intro hcont
        simp only [Bool.and_eq_true, Bool.not_eq_true'] at hdrop
        exact h ⟨[], b, c, after, rfl, hdrop.1, hdrop.2, hcont⟩
      have hspace : isSpace b = true := (Bool.and_eq_true_iff.1 hdrop).1
      rw [hstep, ih fun htears => h (htears.cons hstep), ← List.append_assoc, ← List.append_assoc,
        Charset.isUtf8_drop_iff (toNat_of_isSpace hspace) hbody]
    · have hstep : ∀ before, sift kept (b :: before) = sift (kept.push b) before := fun before => by
        rw [sift, if_neg hdrop]
      rw [hstep, ih fun htears => h (htears.cons hstep), Array.toList_push, List.append_assoc,
        List.singleton_append]

/-! ## Over all commands -/

theorem toNat_of_isMark {b : UInt8} (h : isMark b = true) : b.toNat < 0x80 := by
  rcases isMark_iff.1 h with rfl | rfl <;> decide

/-- A piece and what is kept of it begin with the mark. -/
theorem isUtf8_kept_iff {mark : UInt8} {body : List UInt8} (hmark : isMark mark = true)
    (h : ¬ Tears #[] body) : IsUtf8 (kept (mark :: body)) ↔ IsUtf8 (mark :: body) := by
  have hsift := isUtf8_sift_iff h []
  rw [List.nil_append, List.nil_append, List.nil_append] at hsift
  rw [kept, Charset.isUtf8_cons_iff (toNat_of_isMark hmark),
    Charset.isUtf8_cons_iff (toNat_of_isMark hmark), hsift]

variable {bytes : List UInt8}

/-- Every piece begins with a mark if the first one does. -/
theorem exists_of_mem_pieces (h : ∀ b ∈ bytes.head?, isMark b = true) :
    ∀ piece ∈ pieces bytes, ∃ mark body, piece = mark :: body ∧ isMark mark = true := by
  intro piece hpiece
  have hfirst : ∀ b ∈ bytes.head?, (!isMark b) = false := fun b hb => by simp [h b hb]
  obtain ⟨mark, body, rfl, hmark, -⟩ := exists_of_mem_splitBy hfirst piece hpiece
  exact ⟨mark, body, rfl, by simpa using hmark⟩

/-- Bytes are a text exactly when each of their pieces is, for a mark begins a character. -/
theorem isUtf8_pieces_iff (h : ∀ b ∈ bytes.head?, isMark b = true) :
    IsUtf8 bytes ↔ ∀ piece ∈ pieces bytes, IsUtf8 piece := by
  conv_lhs => rw [← List.flatten_splitBy (fun _ b => !isMark b) bytes]
  apply Charset.isUtf8_flatten_iff
  intro piece hpiece
  obtain ⟨mark, body, rfl, hmark⟩ := exists_of_mem_pieces h piece hpiece
  rintro b ⟨⟩
  exact Charset.isContinuation_of_ascii (toNat_of_isMark hmark)

theorem isUtf8_keptBytes_iff (h : ∀ b ∈ (bytes.dropWhile isSpace).head?, isMark b = true) :
    IsUtf8 (keptBytes bytes) ↔ ∀ piece ∈ pieces (bytes.dropWhile isSpace), IsUtf8 (kept piece) := by
  unfold keptBytes
  rw [Charset.isUtf8_flatten_iff, List.forall_mem_map]
  rw [List.forall_mem_map]
  intro piece hpiece
  obtain ⟨mark, body, rfl, hmark⟩ := exists_of_mem_pieces h piece hpiece
  rintro b ⟨⟩
  exact Charset.isContinuation_of_ascii (toNat_of_isMark hmark)

/-- White space in front of all commands does not matter. -/
theorem isUtf8_dropWhile_iff (bytes : List UInt8) :
    IsUtf8 (bytes.dropWhile isSpace) ↔ IsUtf8 bytes := by
  induction bytes with
  | nil => rfl
  | cons b bytes ih =>
    by_cases hb : isSpace b = true
    · rw [List.dropWhile_cons_of_pos hb, ih, Charset.isUtf8_cons_iff (toNat_of_isSpace hb)]
    · rw [List.dropWhile_cons_of_neg hb]

/-- Bytes of which UTF-8 is kept are UTF-8, unless a character in them is torn. -/
theorem isUtf8_iff_not_isTorn (h : ∀ b ∈ (bytes.dropWhile isSpace).head?, isMark b = true)
    (hkept : IsUtf8 (keptBytes bytes)) : IsUtf8 bytes ↔ ¬ IsTorn bytes := by
  rw [isUtf8_keptBytes_iff h] at hkept
  rw [← isUtf8_dropWhile_iff, isUtf8_pieces_iff h]
  constructor
  · rintro hpieces ⟨mark, body, hpiece, htears⟩
    obtain ⟨m, rest, hcons, hmark⟩ := exists_of_mem_pieces h _ hpiece
    rw [← (List.cons.inj hcons).1] at hmark
    exact htears.not_isUtf8 ((Charset.isUtf8_cons_iff (toNat_of_isMark hmark)).1 (hpieces _ hpiece))
  · intro htorn piece hpiece
    obtain ⟨mark, body, rfl, hmark⟩ := exists_of_mem_pieces h piece hpiece
    exact (isUtf8_kept_iff hmark fun htears => htorn ⟨mark, body, hpiece, htears⟩).1
      (hkept _ hpiece)

/-! ## What is read -/

variable {e : Encoding} {p : Nat}

/-- A piece is read as a token if what is kept of it is a text, and is refused at its mark
otherwise. -/
theorem pieceToken_cases (hset : e.codec = Charset.utf8.codec) (p : Nat) (piece : List UInt8) :
    (∃ cs, kept piece = encodeUtf8 cs ∧ pieceToken e p piece = .ok (.ofChars cs)) ∨
      ¬ IsUtf8 (kept piece) ∧
        ∃ reason, pieceToken e p piece = .error (.undecodable (p + 1) e.name reason) := by
  have hdecode : e.decode (kept piece) = (Text.ofChars <$> Charset.decodeUtf8 (kept piece)).mapError
      fun fault => .refused fault.reason := by
    unfold Encoding.decode
    rw [hset]
    rfl
  unfold pieceToken
  rw [hdecode]
  cases hread : Charset.decodeUtf8 (kept piece) with
  | ok cs => exact Or.inl ⟨cs, Charset.decodeUtf8_eq_ok_iff.1 hread, rfl⟩
  | error fault =>
    refine Or.inr ⟨fun ⟨cs, hcs⟩ => ?_, fault.reason, rfl⟩
    rw [Charset.decodeUtf8_eq_ok_iff.2 hcs] at hread
    cases hread

/-- Pieces are read to the end if UTF-8 is kept of all of them, and otherwise up to the first of
which it is not. -/
theorem pieceTokens_cases (hset : e.codec = Charset.utf8.codec) (p : Nat) (ps : List (List UInt8)) :
    (∃ ts cs, pieceTokens e p ps = .ok ts ∧ (∀ piece ∈ ps, IsUtf8 (kept piece)) ∧
        (ps.map kept).flatten = encodeUtf8 cs ∧ ts.flatMap (·.points) = cs.map .char) ∨
      (¬ ∀ piece ∈ ps, IsUtf8 (kept piece)) ∧
        ∃ place reason, pieceTokens e p ps = .error (.undecodable place e.name reason) := by
  -- induction on the pieces: all are read, or the first one that is torn is refused
  induction ps generalizing p with
  | nil => exact Or.inl ⟨[], [], rfl, by simp, rfl, rfl⟩
  | cons piece ps ih =>
    rw [pieceTokens, List.forall_mem_cons]
    obtain ⟨cs, hkept, htoken⟩ | ⟨hkept, reason, htoken⟩ := pieceToken_cases hset p piece
    · obtain ⟨ts, ds, htokens, hall, hbytes, hpoints⟩ | ⟨hall, place, reason, htokens⟩ :=
        ih (p + piece.length)
      · refine Or.inl ⟨.ofChars cs :: ts, cs ++ ds, ?_, ⟨⟨cs, hkept⟩, hall⟩, ?_, ?_⟩
        · simp only [htoken, htokens]
        · rw [List.map_cons, List.flatten_cons, hkept, hbytes, Charset.encodeUtf8_append]
        · rw [List.flatMap_cons, hpoints, List.map_append]
          rfl
      · refine Or.inr ⟨fun h => hall h.2, place, reason, ?_⟩
        simp only [htoken, htokens]
    · refine Or.inr ⟨fun h => hkept h.1, p + 1, reason, ?_⟩
      simp only [htoken]

/-- All commands are read exactly if the first byte behind white space is a mark and the bytes that
are kept are UTF-8. -/
theorem tokens_cases (hset : e.codec = Charset.utf8.codec) (p : Nat) (bytes : List UInt8) :
    (∃ ts cs, tokens e p bytes = .ok ts ∧
        (∀ b ∈ (bytes.dropWhile isSpace).head?, isMark b = true) ∧
        keptBytes bytes = encodeUtf8 cs ∧ ts.flatMap (·.points) = cs.map .char) ∨
      ¬ ((∀ b ∈ (bytes.dropWhile isSpace).head?, isMark b = true) ∧ IsUtf8 (keptBytes bytes)) ∧
        ∃ fault, tokens e p bytes = .error fault ∧
          ((∃ place, fault = .stray place) ∨
            ∃ place reason, fault = .undecodable place e.name reason) := by
  unfold tokens
  cases htodo : bytes.dropWhile isSpace with
  | nil => exact Or.inl ⟨[], [], rfl, by simp, by simp [keptBytes, htodo, pieces, encodeUtf8], rfl⟩
  | cons b rest =>
    simp only [List.head?_cons, Option.mem_def, Option.some.injEq, forall_eq']
    -- a stray character is refused before any piece is looked at
    by_cases hb : isMark b = true
    · have hmark : ∀ c ∈ (bytes.dropWhile isSpace).head?, isMark c = true := by
        rw [htodo]
        rintro c ⟨⟩
        exact hb
      rw [if_pos hb]
      obtain ⟨ts, cs, htokens, -, hbytes, hpoints⟩ | ⟨hall, place, reason, htokens⟩ :=
        pieceTokens_cases hset (p + (bytes.takeWhile isSpace).length) (pieces (b :: rest))
      · refine Or.inl ⟨ts, cs, htokens, hb, ?_, hpoints⟩
        rw [keptBytes, htodo, hbytes]
      · refine Or.inr ⟨fun h => hall ?_, _, htokens, Or.inr ⟨place, reason, rfl⟩⟩
        have hpieces := (isUtf8_keptBytes_iff hmark).1 h.2
        rwa [htodo] at hpieces
    · rw [if_neg hb]
      exact Or.inr ⟨fun h => hb h.1, _, rfl, Or.inl ⟨_, rfl⟩⟩

/-- All commands of bytes in memory are read as UTF-8 exactly if the first byte behind white space
is a mark and the bytes that are kept are UTF-8; anything else is a fault at a place in the input.
What is read are then the characters of the kept bytes. The bytes themselves are UTF-8 unless a
character in them is torn, and if they are, every character that is read is one of theirs. -/
theorem readAll_utf8 (name : String) (bytes : Array UInt8) (p : Nat) (ended : Bool) :
    let read := answer (readAll ⟨name, Charset.utf8.codec⟩ (inMemory bytes p ended))
    ((∃ ts, read = .ok ts) ↔
      (∀ b ∈ (bytes.toList.dropWhile isSpace).head?, isMark b = true) ∧
        IsUtf8 (keptBytes bytes.toList)) ∧
    (∀ fault, read = .error fault →
      (∃ place, fault = .stray place) ∨ ∃ place reason, fault = .undecodable place name reason) ∧
    ∀ ts, read = .ok ts →
      (∃ cs, keptBytes bytes.toList = encodeUtf8 cs ∧ ts.flatMap (·.points) = cs.map .char) ∧
      (IsUtf8 bytes.toList ↔ ¬ IsTorn bytes.toList) ∧
      ∀ ds, bytes.toList = encodeUtf8 ds → (ts.flatMap (·.points)).Sublist (ds.map .char) := by
  intro read
  have hread : read = tokens ⟨name, Charset.utf8.codec⟩ 0 bytes.toList := answer_readAll_inMemory _ bytes p ended
  clear_value read
  subst hread
  obtain ⟨ts, cs, htokens, hmark, hkept, hpoints⟩ | ⟨hnot, fault, htokens, hfault⟩ :=
    tokens_cases (e := ⟨name, Charset.utf8.codec⟩) rfl 0 bytes.toList
  · rw [htokens]
    refine ⟨⟨fun _ => ⟨hmark, cs, hkept⟩, fun _ => ⟨ts, rfl⟩⟩, by rintro fault ⟨⟩, ?_⟩
    rintro ts ⟨⟩
    refine ⟨⟨cs, hkept, hpoints⟩, isUtf8_iff_not_isTorn hmark ⟨cs, hkept⟩, fun ds hds => ?_⟩
    -- the bytes of characters are read as the characters are
    have hset : Charset.utf8 ≠ .escapedUnicode := by decide
    have hencode : Charset.utf8.encode? ds = some bytes.toList := congrArg some hds.symm
    rw [Script.tokens_eq_of_encode (e := ⟨name, Charset.utf8.codec⟩) rfl hset hencode] at htokens
    exact Script.points_tokens_sublist htokens
  · rw [htokens]
    refine ⟨⟨?_, fun h => absurd h hnot⟩, ?_, ?_⟩
    · rintro ⟨ts, ⟨⟩⟩
    · rintro f ⟨⟩
      exact hfault
    · rintro ts ⟨⟩

/-- White space that is not dropped tears nothing, since it is kept between the bytes. -/
theorem readAll_utf8_fieldData :
    let read := answer (readAll .standard
      (inMemory #[0x5e, 0x46, 0x44, 0x20, 0xc3, 0xa9] 0 false))
    read = .ok ["^FD é"] ∧ ¬ IsTorn [0x5e, 0x46, 0x44, 0x20, 0xc3, 0xa9] := by
  intro read
  have hread : read = .ok ["^FD é"] := by
    rw [show read = tokens .standard 0 _ from answer_readAll_inMemory _ _ 0 false]
    decide +kernel
  have hall := readAll_utf8 "utf-8" #[0x5e, 0x46, 0x44, 0x20, 0xc3, 0xa9] 0 false
  have hvalid : IsUtf8 [0x5e, 0x46, 0x44, 0x20, 0xc3, 0xa9] :=
    ⟨['^', 'F', 'D', ' ', 'é'], by decide⟩
  exact ⟨hread, ((hall.2.2 _ hread).2.1).1 hvalid⟩

/-- The two bytes of a character with a space between them are read as this character, though they
are not UTF-8. -/
theorem readAll_torn :
    answer (readAll .standard
        (inMemory #[0x5e, 0x58, 0x41, 0xc3, 0x20, 0xa9] 0 false)) = .ok ["^XAé"] ∧
      ¬ IsUtf8 [0x5e, 0x58, 0x41, 0xc3, 0x20, 0xa9] := by
  constructor
  · rw [answer_readAll_inMemory]
    decide +kernel
  · show ¬ IsUtf8 ([0x5e, 0x58, 0x41, 0xc3] ++ 0x20 :: 0xa9 :: [])
    exact Charset.not_isUtf8_torn (by decide) (by decide)

end LabelPress.Input
