import LabelPress.Charset.Idna
import LabelPress.Input.Reader
import LabelPress.Proofs.Input.Pieces

/-!
# Commands as characters spell them

`Script.commands` reads commands from characters and knows nothing of bytes, cursors or character
sets: white space in front is passed, the text is cut before every mark, and each piece is cleaned
of the white space that does not count.

Bytes are read in another way. The reader decides byte by byte what to keep, and decodes what it has
kept afterwards. `Reader.commands_ofText` says that for every text that a set without escapes can
write the two agree, so that nothing is ever undecodable there. The agreement is carried by
`Agrees`: a question about characters that the bytes of each character answer in the same way.
-/

namespace LabelPress

namespace Script

/-- Whether a character begins a command. -/
def isMark (c : Char) : Bool :=
  c == '^' || c == '~'

/-- The white space that does not count. -/
def isSpace (c : Char) : Bool :=
  c ∈ [' ', '\t', '\n', '\x0b', '\x0c', '\r']

/-- Whether two characters are the code of field data, in either case. -/
def isFieldData (c d : Char) : Bool :=
  (c == 'F' || c == 'f') && (d == 'D' || d == 'd')

/-- A piece behind its mark without the white space that does not count: field data stand as they
are behind their code. -/
def clean (body : List Char) : List Char :=
  match body.dropWhile isSpace with
  | [] => []
  | c :: rest =>
    match rest.dropWhile isSpace with
    | [] => [c]
    | d :: data => c :: d :: if isFieldData c d then data else data.filter (!isSpace ·)

/-- Characters cut before every mark. -/
def pieces (text : List Char) : List (List Char) :=
  text.splitBy fun _ c => !isMark c

/-- The command of a piece. -/
def command : List Char → Command
  | [] => .parse .empty
  | mark :: body => .parse (.ofChars (mark :: clean body))

/-- The token of a piece. -/
def token : List Char → Text
  | [] => .empty
  | mark :: body => .ofChars (mark :: clean body)

theorem command_eq (piece : List Char) : command piece = .parse (token piece) := by
  cases piece <;> rfl

/-- The commands of a text. What stands in front of the first mark has to be white space. -/
def commands (text : List Char) : Except InputFault (List Command) :=
  match text.dropWhile isSpace with
  | [] => .ok []
  | c :: rest =>
    if isMark c then .ok ((pieces (c :: rest)).map command)
    else .error (.stray ((text.takeWhile isSpace).length + 1))

/-- The tokens of a text, of which the commands are made. -/
def tokens (text : List Char) : Except InputFault (List Text) :=
  match text.dropWhile isSpace with
  | [] => .ok []
  | c :: rest =>
    if isMark c then .ok ((pieces (c :: rest)).map token)
    else .error (.stray ((text.takeWhile isSpace).length + 1))

/-- The commands of a text are its tokens, each taken for a command. -/
theorem commands_eq (text : List Char) :
    commands text = (tokens text).map (List.map Command.parse) := by
  unfold commands tokens
  cases text.dropWhile isSpace with
  | nil => rfl
  | cons c rest =>
    have hcommand : command = Command.parse ∘ token := funext command_eq
    simp only [hcommand, ← List.map_map]
    split <;> rfl

/-! ## Cleaning as a loop -/

/-- Whether kept characters begin with the code of field data. -/
def beginsFieldData : List Char → Bool
  | c :: d :: _ => isFieldData c d
  | _ => false

/-- The characters that are kept after others. -/
def keep : List Char → List Char → List Char
  | kept, [] => kept
  | kept, c :: cs =>
    if isSpace c && !beginsFieldData kept then keep kept cs else keep (kept ++ [c]) cs

/-- Before field data, white space is passed and the next character is kept. -/
theorem keep_eq {kept : List Char} (h : beginsFieldData kept = false) (cs : List Char) :
    keep kept cs =
      match cs.dropWhile isSpace with
      | [] => kept
      | c :: rest => keep (kept ++ [c]) rest := by
  induction cs with
  | nil => rfl
  | cons c cs ih =>
    rw [keep]
    by_cases hc : isSpace c = true
    · rw [if_pos (by simp [hc, h]), List.dropWhile_cons_of_pos hc, ih]
    · rw [if_neg (by simp [hc]), List.dropWhile_cons_of_neg hc]

theorem keep_of_fieldData (c d : Char) (h : isFieldData c d = true) (tail cs : List Char) :
    keep (c :: d :: tail) cs = c :: d :: tail ++ cs := by
  induction cs generalizing tail with
  | nil => rw [keep, List.append_nil]
  | cons x cs ih =>
    have hkept : beginsFieldData (c :: d :: tail) = true := h
    rw [keep, hkept, Bool.not_true, Bool.and_false, if_neg Bool.false_ne_true,
      List.cons_append, List.cons_append, ih (tail ++ [x])]
    simp only [List.cons_append, List.append_assoc, List.nil_append]

/-- Behind any other two characters white space is dropped from the rest. -/
theorem keep_of_not_fieldData (c d : Char) (h : isFieldData c d = false) (tail cs : List Char) :
    keep (c :: d :: tail) cs = c :: d :: tail ++ cs.filter (!isSpace ·) := by
  induction cs generalizing tail with
  | nil => rw [keep, List.filter_nil, List.append_nil]
  | cons x cs ih =>
    have hkept : beginsFieldData (c :: d :: tail) = false := h
    rw [keep, hkept, Bool.not_false, Bool.and_true]
    by_cases hx : isSpace x = true
    · rw [if_pos hx, ih, List.filter_cons_of_neg (by simp [hx])]
    · rw [if_neg hx, List.cons_append, List.cons_append, ih (tail ++ [x]),
        List.filter_cons_of_pos (by simp [hx])]
      simp only [List.cons_append, List.append_assoc, List.nil_append]

/-- Keeping from the start is cleaning. -/
theorem keep_nil (body : List Char) : keep [] body = clean body := by
  unfold clean
  rw [keep_eq rfl]
  cases body.dropWhile isSpace with
  | nil => rfl
  | cons c rest =>
    simp only [List.nil_append]
    rw [keep_eq rfl]
    cases rest.dropWhile isSpace with
    | nil => rfl
    | cons d data =>
      simp only [List.singleton_append]
      cases h : isFieldData c d with
      | true => exact keep_of_fieldData c d h [] data
      | false => exact keep_of_not_fieldData c d h [] data

end Script

/-! ## Questions that characters and bytes answer alike -/

namespace Charset

/-- All bytes of a character answer a question as the character does. -/
def Agrees (set : Charset) (p : Char → Bool) (q : UInt8 → Bool) : Prop :=
  ∀ c code, set.encode? [c] = some code → ∀ b ∈ code, q b = p c

variable {set : Charset} {p : Char → Bool} {q : UInt8 → Bool} {cs : List Char} {bs : List UInt8}

theorem code_ne_nil (hset : set ≠ .escapedUnicode) {c : Char} {code : List UInt8}
    (h : set.encode? [c] = some code) : code ≠ [] := by
  rcases code_cases hset h with ⟨-, rfl⟩ | ⟨-, hne, -⟩
  · exact List.cons_ne_nil _ _
  · exact hne

/-- A question about ASCII characters is asked of bytes in the same way. -/
theorem agrees_of_ascii (hset : set ≠ .escapedUnicode)
    (hlow : ∀ c : Char, c.toNat < 0x80 → q c.toNat.toUInt8 = p c)
    (hhigh : ∀ c : Char, 0x80 ≤ c.toNat → ∀ b : UInt8, 0x80 ≤ b.toNat → q b = p c) :
    Agrees set p q := by
  intro c code h b hb
  rcases code_cases hset h with ⟨hc, rfl⟩ | ⟨hc, -, hall⟩
  · rw [List.mem_singleton.1 hb]
    exact hlow c hc
  · exact hhigh c hc b (hall b hb)

theorem Agrees.not (h : Agrees set p q) : Agrees set (fun c => !p c) (fun b => !q b) :=
  fun c code hcode b hb => congrArg Bool.not (h c code hcode b hb)

/-- The bytes in front that pass are those of the characters in front that pass. -/
theorem Agrees.split (h : Agrees set p q) (hset : set ≠ .escapedUnicode)
    (hcs : set.encode? cs = some bs) :
    set.encode? (cs.takeWhile p) = some (bs.takeWhile q) ∧
      set.encode? (cs.dropWhile p) = some (bs.dropWhile q) := by
  induction cs generalizing bs with
  | nil =>
    rw [encode?_nil, Option.some.injEq] at hcs
    subst hcs
    exact ⟨encode?_nil set, encode?_nil set⟩
  | cons c cs ih =>
    obtain ⟨code, rest, hcode, hrest, rfl⟩ := encode?_cons.1 hcs
    have hq := h c code hcode
    -- a character passes or fails with all its bytes, of which there is one at least
    by_cases hc : p c = true
    · have hall : ∀ b ∈ code, q b = true := fun b hb => (hq b hb).trans hc
      obtain ⟨htake, hdrop⟩ := ih hrest
      rw [List.takeWhile_cons_of_pos hc, List.dropWhile_cons_of_pos hc,
        List.takeWhile_append_of_pos hall, List.dropWhile_append_of_pos hall]
      exact ⟨encode?_cons.2 ⟨code, _, hcode, htake, rfl⟩, hdrop⟩
    · obtain ⟨b, tail, rfl⟩ := List.exists_cons_of_ne_nil (code_ne_nil hset hcode)
      have hb : ¬ q b = true := by
        rw [hq b List.mem_cons_self]
        exact hc
      rw [List.takeWhile_cons_of_neg hc, List.dropWhile_cons_of_neg hc, List.cons_append,
        List.takeWhile_cons_of_neg hb, List.dropWhile_cons_of_neg hb]
      exact ⟨encode?_nil set, hcs⟩

/-- ASCII characters are as many as their bytes. -/
theorem length_of_ascii (hset : set ≠ .escapedUnicode) (hascii : ∀ c ∈ cs, c.toNat < 0x80)
    (hcs : set.encode? cs = some bs) : bs.length = cs.length := by
  induction cs generalizing bs with
  | nil =>
    rw [encode?_nil, Option.some.injEq] at hcs
    subst hcs
    rfl
  | cons c cs ih =>
    obtain ⟨code, rest, hcode, hrest, rfl⟩ := encode?_cons.1 hcs
    have hc := hascii c List.mem_cons_self
    have hlen := ih (fun d hd => hascii d (List.mem_cons_of_mem c hd)) hrest
    rcases code_cases hset hcode with ⟨-, rfl⟩ | ⟨hge, -⟩
    · rw [List.length_append, hlen, List.length_singleton, List.length_cons, Nat.add_comm]
    · omega

end Charset

/-! ## From bytes to characters -/

namespace Script

theorem ne_of_high {c d : Char} (hc : 0x80 ≤ c.toNat) (hd : d.toNat < 0x80) : c ≠ d := by
  rintro rfl
  omega

theorem byte_ne_of_high {b : UInt8} (hb : 0x80 ≤ b.toNat) {d : Char} (hd : d.toNat < 0x80) :
    b ≠ d.toNat.toUInt8 := by
  rintro rfl
  rw [Charset.toNat_toUInt8 (by omega)] at hb
  omega

theorem byte_eq_iff {c d : Char} (hc : c.toNat < 0x80) (hd : d.toNat < 0x80) :
    c.toNat.toUInt8 = d.toNat.toUInt8 ↔ c = d := by
  constructor
  · intro h
    have hval := congrArg UInt8.toNat h
    rw [Charset.toNat_toUInt8 (by omega), Charset.toNat_toUInt8 (by omega)] at hval
    rw [← Char.ofNat_toNat c, hval, Char.ofNat_toNat]
  · rintro rfl
    rfl

variable {set : Charset}

/-- Being one of two ASCII characters is being one of their bytes. -/
theorem agrees_either (hset : set ≠ .escapedUnicode) {x y : Char} (hx : x.toNat < 0x80)
    (hy : y.toNat < 0x80) :
    set.Agrees (fun c => c == x || c == y)
      (fun b => b == x.toNat.toUInt8 || b == y.toNat.toUInt8) := by
  apply Charset.agrees_of_ascii hset
  · intro c hc
    rw [Bool.eq_iff_iff]
    simp only [Bool.or_eq_true, beq_iff_eq, byte_eq_iff hc hx, byte_eq_iff hc hy]
  · intro c hc b hb
    simp only [beq_false_of_ne (ne_of_high hc hx), beq_false_of_ne (ne_of_high hc hy),
      beq_false_of_ne (byte_ne_of_high hb hx), beq_false_of_ne (byte_ne_of_high hb hy)]

theorem agrees_isMark (hset : set ≠ .escapedUnicode) : set.Agrees isMark Input.isMark :=
  agrees_either hset (x := '^') (y := '~') (by decide) (by decide)

/-- What holds of the numbers below 128 holds of the characters of ASCII. -/
@[elab_as_elim]
theorem of_ascii {P : Char → Prop} {c : Char} (hc : c.toNat < 0x80)
    (h : ∀ n < 0x80, P (Char.ofNat n)) : P c :=
  Char.ofNat_toNat c ▸ h c.toNat hc

theorem isSpace_byte : ∀ n < 0x80, Input.isSpace n.toUInt8 = isSpace (Char.ofNat n) := by
  decide

theorem toNat_lt_of_isSpace {c : Char} (h : isSpace c = true) : c.toNat < 0x80 := by
  simp only [isSpace, List.mem_cons, List.not_mem_nil, or_false, decide_eq_true_eq] at h
  rcases h with rfl | rfl | rfl | rfl | rfl | rfl <;> decide

theorem toNat_lt_of_isSpace_byte {b : UInt8} (h : Input.isSpace b = true) : b.toNat < 0x80 := by
  simp only [Input.isSpace, Bool.or_eq_true, beq_iff_eq, Bool.and_eq_true, decide_eq_true_eq,
    UInt8.le_iff_toNat_le] at h
  rcases h with rfl | ⟨-, h⟩
  · decide
  · exact Nat.lt_of_le_of_lt h (by decide)

/-- White space is the same in characters and in bytes, for it is ASCII. -/
theorem agrees_isSpace (hset : set ≠ .escapedUnicode) : set.Agrees isSpace Input.isSpace := by
  apply Charset.agrees_of_ascii hset
  · intro c hc
    rw [isSpace_byte c.toNat hc, Char.ofNat_toNat]
  · intro c hc b hb
    have hchar : isSpace c = false := by
      rw [← Bool.not_eq_true]
      exact fun h => absurd (toNat_lt_of_isSpace h) (by omega)
    have hbyte : Input.isSpace b = false := by
      rw [← Bool.not_eq_true]
      exact fun h => absurd (toNat_lt_of_isSpace_byte h) (by omega)
    rw [hchar, hbyte]

/-- An ASCII character is its own byte. -/
theorem code_of_ascii (hset : set ≠ .escapedUnicode) {c : Char} {code : List UInt8}
    (h : set.encode? [c] = some code) (hc : c.toNat < 0x80) : code = [c.toNat.toUInt8] := by
  rcases Charset.code_cases hset h with ⟨-, hcode⟩ | ⟨hge, -⟩
  · exact hcode
  · omega

/-! ### Field data -/

/-- Whether data follow is seen from the first two bytes. -/
theorem isFieldData_eq (kept : Array UInt8) :
    Input.isFieldData kept =
      match kept.toList with
      | b :: d :: _ =>
        (b == 'F'.toNat.toUInt8 || b == 'f'.toNat.toUInt8) &&
          (d == 'D'.toNat.toUInt8 || d == 'd'.toNat.toUInt8)
      | _ => false := by
  rcases kept with ⟨_ | ⟨b, _ | ⟨d, rest⟩⟩⟩
  · rfl
  · simp [Input.isFieldData]
  · simp only [Input.isFieldData, List.getElem?_toArray, List.getElem?_cons_zero,
      List.getElem?_cons_succ, Option.some_beq_some]
    rfl

/-- Kept bytes begin with the code of field data if and only if the characters do. -/
theorem isFieldData_of_encode (hset : set ≠ .escapedUnicode) {cs : List Char}
    {kept : Array UInt8} (h : set.encode? cs = some kept.toList) :
    Input.isFieldData kept = beginsFieldData cs := by
  have hF := agrees_either hset (x := 'F') (y := 'f') (by decide) (by decide)
  have hD := agrees_either hset (x := 'D') (y := 'd') (by decide) (by decide)
  rw [isFieldData_eq]
  cases cs with
  | nil =>
    rw [Charset.encode?_nil, Option.some.injEq] at h
    rw [← h]
    rfl
  | cons c cs =>
    obtain ⟨code, rest, hcode, hrest, hkept⟩ := Charset.encode?_cons.1 h
    obtain ⟨b, tail, rfl⟩ := List.exists_cons_of_ne_nil (Charset.code_ne_nil hset hcode)
    have hb := hF c _ hcode b List.mem_cons_self
    beta_reduce at hb
    rw [hkept]
    by_cases hc : (c == 'F' || c == 'f') = true
    · -- then the character is its own byte, and the next byte belongs to the next character
      have hascii : c.toNat < 0x80 := by
        rcases Bool.or_eq_true_iff.1 hc with h | h <;> rw [beq_iff_eq.1 h] <;> decide
      obtain ⟨rfl, rfl⟩ := List.cons.inj (code_of_ascii hset hcode hascii)
      cases cs with
      | nil =>
        rw [Charset.encode?_nil, Option.some.injEq] at hrest
        rw [← hrest]
        rfl
      | cons d cs =>
        obtain ⟨code, rest, hcode, -, rfl⟩ := Charset.encode?_cons.1 hrest
        obtain ⟨b, tail, rfl⟩ := List.exists_cons_of_ne_nil (Charset.code_ne_nil hset hcode)
        have hd := hD d _ hcode b List.mem_cons_self
        simp only [List.cons_append, List.nil_append, hb, hd]
        rfl
    · -- otherwise the first byte is no part of the code either
      rw [Bool.not_eq_true] at hc
      have hleft : beginsFieldData (c :: cs) = false := by
        cases cs with
        | nil => rfl
        | cons d cs => rw [beginsFieldData, isFieldData, hc, Bool.false_and]
      rw [hleft, List.cons_append]
      split
      · next heq =>
        rw [← (List.cons.inj heq).1, hb, hc, Bool.false_and]
      · rfl

/-- A code without white space in it is kept as a whole. -/
theorem sift_append {kept : Array UInt8} {code : List UInt8}
    (h : ∀ b ∈ code, Input.isSpace b = false) (rest : List UInt8) :
    Input.sift kept (code ++ rest) = Input.sift (kept ++ code) rest := by
  induction code generalizing kept with
  | nil => simp
  | cons b code ih =>
    have hb : Input.isSpace b = false := h b List.mem_cons_self
    rw [List.cons_append, Input.sift, hb, Bool.false_and, if_neg Bool.false_ne_true,
      ih fun d hd => h d (List.mem_cons_of_mem b hd)]
    simp

/-- What is kept of the bytes is what is kept of the characters. -/
theorem sift_of_encode (hset : set ≠ .escapedUnicode) {cs before : List Char} {bs : List UInt8}
    {kept : Array UInt8} (hkept : set.encode? before = some kept.toList)
    (hcs : set.encode? cs = some bs) :
    set.encode? (keep before cs) = some (Input.sift kept bs).toList := by
  -- by induction on the text, for everything that may have been kept of it before
  induction cs generalizing before kept bs with
  | nil =>
    rw [Charset.encode?_nil, Option.some.injEq] at hcs
    subst hcs
    exact hkept
  | cons c cs ih =>
    obtain ⟨code, rest, hcode, hrest, rfl⟩ := Charset.encode?_cons.1 hcs
    have hspace := agrees_isSpace hset c code hcode
    have hfield := isFieldData_of_encode hset hkept
    have hpush : set.encode? (before ++ [c]) = some (kept ++ code).toList := by
      rw [Array.toList_appendList]
      exact Charset.encode?_append hkept hcode
    by_cases hc : isSpace c = true
    · -- white space is one byte, so it is dropped or kept in one step
      obtain rfl := code_of_ascii hset hcode (toNat_lt_of_isSpace hc)
      have hb := (hspace _ List.mem_cons_self).trans hc
      rw [keep, List.singleton_append, Input.sift, hc, hb, hfield]
      split
      · exact ih hkept hrest
      · exact ih (by simpa using hpush) hrest
    · -- any other character is kept, and so are all its bytes
      rw [Bool.not_eq_true] at hc
      have hall : ∀ b ∈ code, Input.isSpace b = false := fun b hb => (hspace b hb).trans hc
      rw [keep, hc, Bool.false_and, if_neg Bool.false_ne_true, sift_append hall]
      exact ih hpush hrest

/-! ### Pieces and commands -/

/-- A piece in characters and in bytes: a mark, which is one byte, and the rest. -/
def PieceOf (set : Charset) (chars : List Char) (bytes : List UInt8) : Prop :=
  ∃ mark body b code, chars = mark :: body ∧ bytes = b :: code ∧
    set.encode? [mark] = some [b] ∧ set.encode? body = some code

theorem toNat_lt_of_isMark {c : Char} (h : isMark c = true) : c.toNat < 0x80 := by
  rcases Bool.or_eq_true_iff.1 h with h | h <;> rw [beq_iff_eq.1 h] <;> decide

/-- The pieces of the bytes are those of the characters. -/
theorem pieces_of_encode (hset : set ≠ .escapedUnicode) {cs : List Char} {bs : List UInt8}
    (hmark : ∀ c ∈ cs.head?, isMark c = true) (hcs : set.encode? cs = some bs) :
    List.Forall₂ (PieceOf set) (pieces cs) (Input.pieces bs) := by
  -- by induction on the length: a piece is followed by the rest from its next mark on
  induction hn : cs.length using Nat.strongRecOn generalizing cs bs with
  | _ n ih =>
    cases cs with
    | nil =>
      rw [Charset.encode?_nil, Option.some.injEq] at hcs
      subst hcs
      exact .nil
    | cons c cs =>
      have hc : isMark c = true := hmark c rfl
      obtain ⟨code, rest, hcode, hrest, rfl⟩ := Charset.encode?_cons.1 hcs
      obtain rfl := code_of_ascii hset hcode (toNat_lt_of_isMark hc)
      obtain ⟨htake, hdrop⟩ := (agrees_isMark hset).not.split hset hrest
      have hless : (cs.dropWhile (!isMark ·)).length < n := by
        have hle := (List.dropWhile_suffix (l := cs) (!isMark ·)).length_le
        rw [List.length_cons] at hn
        omega
      have hpieces : pieces (c :: cs) =
          (c :: cs.takeWhile (!isMark ·)) :: pieces (cs.dropWhile (!isMark ·)) :=
        Input.splitBy_cons (fun c => !isMark c) c cs
      rw [List.singleton_append, Input.pieces_cons, hpieces]
      exact .cons ⟨c, _, _, _, rfl, rfl, hcode, htake⟩ 
        (ih _ hless Input.of_mem_head_dropWhile hdrop rfl)

/-- What is kept of a piece is decoded, and gives the token that its characters spell. -/
theorem pieceToken_of_pieceOf {e : Encoding} (hcodec : e.codec = set.codec)
    (hset : set ≠ .escapedUnicode) (p : Nat) {chars : List Char} {bytes : List UInt8}
    (h : PieceOf set chars bytes) :
    Input.pieceToken e p bytes = .ok (token chars) := by
  obtain ⟨mark, body, b, code, rfl, rfl, hmark, hcode⟩ := h
  have hsift : set.encode? (keep [] body) = some (Input.sift #[] code).toList :=
    sift_of_encode hset (Charset.encode?_nil _) hcode
  have hkept : set.encode? (mark :: clean body) = some (Input.kept (b :: code)) := by
    rw [← keep_nil]
    exact Charset.encode?_cons.2 ⟨_, _, hmark, hsift, rfl⟩
  have hdecode : e.decode (Input.kept (b :: code)) = .ok (.ofChars (mark :: clean body)) := by
    rw [Encoding.decode, hcodec]
    exact Charset.codec_decode_eq_ok.2 (Charset.decode_encode hset hkept)
  unfold Input.pieceToken
  rw [hdecode]
  rfl

/-- Pieces of bytes that stand for pieces of characters are read as their tokens. -/
theorem pieceTokens_of_pieceOf {e : Encoding} (hcodec : e.codec = set.codec)
    (hset : set ≠ .escapedUnicode) (p : Nat) {chars : List (List Char)} {bytes : List (List UInt8)}
    (h : List.Forall₂ (PieceOf set) chars bytes) :
    Input.pieceTokens e p bytes = .ok (chars.map token) := by
  induction h generalizing p with
  | nil => rfl
  | @cons c b cs bs hpiece _ ih =>
    rw [Input.pieceTokens, pieceToken_of_pieceOf hcodec hset p hpiece]
    simp only [ih (p + b.length)]
    rfl

/-- The tokens of the bytes of a text are those that its characters spell. -/
theorem tokens_eq_of_encode {e : Encoding} (hcodec : e.codec = set.codec)
    (hset : set ≠ .escapedUnicode) {cs : List Char} {bs : List UInt8}
    (h : set.encode? cs = some bs) : Input.tokens e 0 bs = tokens cs := by
  obtain ⟨htake, hdrop⟩ := (agrees_isSpace hset).split hset h
  -- places are counted in bytes, and white space has one byte in every set
  have hlength : (bs.takeWhile Input.isSpace).length = (cs.takeWhile isSpace).length := by
    apply Charset.length_of_ascii hset _ htake
    intro c hc
    exact toNat_lt_of_isSpace (List.mem_takeWhile_imp hc)
  unfold Input.tokens tokens
  rw [hlength]
  cases hcs : cs.dropWhile isSpace with
  | nil =>
    rw [hcs, Charset.encode?_nil, Option.some.injEq] at hdrop
    rw [← hdrop]
  | cons c rest =>
    rw [hcs] at hdrop
    obtain ⟨code, tail, hcode, -, hbytes⟩ := Charset.encode?_cons.1 hdrop
    obtain ⟨b, code, rfl⟩ := List.exists_cons_of_ne_nil (Charset.code_ne_nil hset hcode)
    have hb : Input.isMark b = isMark c := agrees_isMark hset c _ hcode b List.mem_cons_self
    rw [hbytes, List.cons_append]
    simp only [hb]
    by_cases hc : isMark c = true
    · rw [if_pos hc, if_pos hc, ← List.cons_append, ← hbytes]
      have hmark : ∀ d ∈ (c :: rest).head?, isMark d = true := by
        intro d hd
        rw [← Option.some.inj hd]
        exact hc
      exact pieceTokens_of_pieceOf hcodec hset _ (pieces_of_encode hset hmark hdrop)
    · rw [if_neg hc, if_neg hc, Nat.zero_add]

/-- The commands of the bytes of a text are those that its characters spell. -/
theorem tokens_of_encode {e : Encoding} (hcodec : e.codec = set.codec)
    (hset : set ≠ .escapedUnicode) {cs : List Char} {bs : List UInt8}
    (h : set.encode? cs = some bs) :
    (Input.tokens e 0 bs).map (List.map Command.parse) = commands cs := by
  rw [commands_eq, tokens_eq_of_encode hcodec hset h]

end Script

namespace Reader

/-- The commands of bytes in memory, wherever the cursor stands. -/
theorem commands_inMemory (e : Encoding) (bytes : Array UInt8) (p : Nat) (ended : Bool) :
    (commands ⟨.inMemory bytes p ended, e⟩).2 =
      ((Input.tokens e 0 bytes.toList).map (List.map Command.parse)).mapError .input := by
  rw [← Input.answer_readAll_inMemory e bytes p ended]
  unfold commands
  cases Input.readAll e (.inMemory bytes p ended) <;> rfl

/-- The reader of a text in UTF-8, which has bytes for every string. -/
def ofUtf8 (text : String) : Reader :=
  ⟨.inMemory (Charset.encodeUtf8 text.toList).toArray 0 false, .standard⟩

theorem ofText_utf8 (library : Codec.Library) (text : String) :
    ofText library "utf-8" text = .ok (ofUtf8 text) := by
  have hencoding : encodingOf library "utf-8" = .ok .standard := by
    unfold encodingOf
    rw [Encoding.ofName_standard]
  have htext : Encoding.standard.encode text = .ok (Charset.encodeUtf8 text.toList) :=
    Charset.codec_encode_eq_ok.2 rfl
  unfold ofText
  rw [hencoding]
  simp only [bind, Except.bind, htext, ofSource, hencoding]
  rfl

/-- All tokens of a text in UTF-8 are those that its characters spell. -/
theorem answer_readAll_ofUtf8 (text : String) :
    Input.answer (Input.readAll (ofUtf8 text).encoding (ofUtf8 text).cursor) =
      Script.tokens text.toList := by
  have hset : Charset.utf8 ≠ .escapedUnicode := by decide
  unfold ofUtf8
  rw [Input.answer_readAll_inMemory, List.toList_toArray]
  exact Script.tokens_eq_of_encode rfl hset rfl

/-- A text that is read as UTF-8 gives its commands. -/
theorem commands_ofUtf8 (text : String) :
    (ofUtf8 text).commands.2 = (Script.commands text.toList).mapError .input := by
  have hset : Charset.utf8 ≠ .escapedUnicode := by decide
  unfold ofUtf8
  rw [commands_inMemory, List.toList_toArray, Script.tokens_of_encode rfl hset rfl]

/-- Reading a text that a set without escapes can write (UTF-8, Latin-1, ASCII, and the pages 1252,
Latin-9 and 437) gives the commands that its characters spell. Only the first character that is not
white space can be at fault. -/
theorem commands_ofText {library : Codec.Library} {name : Text} {e : Encoding} {set : Charset}
    {text : String} (hname : Encoding.ofName library name = .ok e) (hcodec : e.codec = set.codec)
    (hset : set ≠ .escapedUnicode) (htext : (set.encode? text.toList).isSome = true) :
    ∃ r, ofText library name text = .ok r ∧
      r.commands.2 = (Script.commands text.toList).mapError .input := by
  obtain ⟨bytes, hbytes⟩ := Option.isSome_iff_exists.1 htext
  have hencoding : encodingOf library name = .ok e := by
    unfold encodingOf
    rw [hname]
  have hencode : e.encode text = .ok bytes := by
    rw [Encoding.encode, hcodec]
    exact Charset.codec_encode_eq_ok.2 hbytes
  refine ⟨⟨.inMemory bytes.toArray 0 false, e⟩, ?_, ?_⟩
  · unfold ofText
    rw [hencoding]
    simp only [bind, Except.bind, hencode, ofSource, hencoding]
    rfl
  · rw [commands_inMemory, List.toList_toArray, Script.tokens_of_encode hcodec hset hbytes]

/-- White space counts behind the code of field data only, and a letter outside ASCII is one
character there. -/
theorem commands_ofText_field :
    ∃ r, ofText .standard "utf-8" "\n ^f d é\t~x z, 1" = .ok r ∧
      r.commands.2 = .ok [⟨some (.char '^'), "FD", [" é\t"]⟩,
        ⟨some (.char '~'), "XZ", ["", "1"]⟩] := by
  have htext : (Charset.utf8.encode? "\n ^f d é\t~x z, 1".toList).isSome = true := by decide
  obtain ⟨r, hr, hcommands⟩ :=
    commands_ofText (Encoding.ofName_standard _) rfl (by decide) htext
  refine ⟨r, hr, hcommands.trans ?_⟩
  have hscript : Script.commands "\n ^f d é\t~x z, 1".toList =
      .ok [⟨some (.char '^'), "FD", [" é\t"]⟩, ⟨some (.char '~'), "XZ", ["", "1"]⟩] := by
    decide
  rw [hscript]
  rfl

end Reader

end LabelPress
