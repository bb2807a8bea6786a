import LabelPress.Proofs.Input.Written
import LabelPress.Proofs.Press.FieldData

/-!
# Codes in letters of either case

The code of a command is its first two characters that are kept, and it counts in capitals. The
second character of a font command is its first argument and counts as it is written. So two texts
whose pieces are the same but for the case of code letters (`Script.Recased`) say the same commands.

The code is looked at twice. The reader decides on its bytes whether white space is kept, the command
is named by its capitals afterwards. `Script.keepsOf_token` says that for codes in ASCII the two
agree on what field data are.

* `Command.parse_congr`: a command is made of the capitals of its code and of what follows it;
* `Script.Recased.parse`: one piece says the same in either case;
* `Reader.commands_recased`: so does a text, and white space is kept in field data only.
-/

namespace LabelPress

namespace Script

/-! ## Letters of either case -/

/-- The same character, but for the case of a letter of ASCII. -/
def SameLetter (c d : Char) : Prop :=
  c.toLower = d.toLower

/-- The same piece, but for the case of letters of its code. White space may stand before each
character of the code. -/
inductive Recased : List Char → List Char → Prop where
  | same (piece : List Char) : Recased piece piece
  | first {mark c c' : Char} {before rest : List Char} (hmark : isMark mark = true)
    (hbefore : ∀ x ∈ before, isSpace x = true) (hspace : isSpace c = false)
    (hc : SameLetter c c') :
    Recased (mark :: (before ++ c :: rest)) (mark :: (before ++ c' :: rest))
  /-- The second character belongs to the code unless the command is a font command. -/
  | both {mark c c' d d' : Char} {before between data : List Char} (hmark : isMark mark = true)
    (hbefore : ∀ x ∈ before, isSpace x = true) (hspace : isSpace c = false)
    (hbetween : ∀ x ∈ between, isSpace x = true) (hspace' : isSpace d = false)
    (hc : SameLetter c c') (hd : SameLetter d d') (hfont : SameLetter c 'A' → d = '@') :
    Recased (mark :: (before ++ c :: (between ++ d :: data)))
      (mark :: (before ++ c' :: (between ++ d' :: data)))

section Letters

variable {A : Type} {q : Char → A} {c c' d d' : Char}

theorem toLower_of_high (h : 0x80 ≤ c.toNat) : c.toLower = c := by
  unfold Char.toLower
  rw [dif_neg]
  rintro ⟨-, hZ⟩
  have hZ : c.toNat ≤ 'Z'.toNat := hZ
  exact absurd (Nat.le_trans h hZ) (by decide)

/-- What is the same for small letters and capitals of ASCII is the same for all characters. -/
theorem SameLetter.congr (hq : ∀ n < 0x80, q (Char.ofNat n).toLower = q (Char.ofNat n))
    (h : SameLetter c d) : q c = q d := by
  have hlower (x : Char) : q x.toLower = q x := by
    by_cases hx : x.toNat < 0x80
    · exact of_ascii hx hq
    · rw [toLower_of_high (by omega)]
  rw [← hlower c, h, hlower d]

theorem SameLetter.upperChar (h : SameLetter c d) : Text.upperChar c = Text.upperChar d :=
  h.congr (by decide)

theorem SameLetter.isSpace (h : SameLetter c d) : isSpace c = isSpace d :=
  h.congr (by decide)

theorem isFieldData_congr (hc : SameLetter c c') (hd : SameLetter d d') :
    isFieldData c d = isFieldData c' d' := by
  unfold isFieldData
  exact congrArg₂ (· && ·) (hc.congr (q := fun x => x == 'F' || x == 'f') (by decide))
    (hd.congr (q := fun x => x == 'D' || x == 'd') (by decide))

/-- In ASCII, a capital is the same letter. -/
theorem sameLetter_of_upperChar {x : Char} (hc : c.toNat < 0x80) (h : x ∈ Text.upperChar c) :
    SameLetter c x := by
  have hlower : (Text.upperChar c).map Char.toLower = [c.toLower] := of_ascii hc (by decide)
  have hmem : x.toLower ∈ (Text.upperChar c).map Char.toLower := List.mem_map_of_mem h
  rw [hlower, List.mem_singleton] at hmem
  exact hmem.symm

end Letters

/-! ## Pieces -/

section Tokens

variable {piece piece' text text' : List Char}

theorem Recased.head?_eq (h : Recased piece piece') : piece'.head? = piece.head? := by
  cases h <;> rfl

/-- What does not begin with a mark has no code. -/
theorem Recased.eq_of_head (h : Recased piece piece') (hmark : piece.head?.any isMark = false) :
    piece' = piece := by
  cases h with
  | same => rfl
  | first hm => simp [hm] at hmark
  | both hm => simp [hm] at hmark

/-- What stands in front of the first character that is no white space. -/
theorem exists_spaces {l : List Char} {c : Char} {rest : List Char}
    (h : l.dropWhile isSpace = c :: rest) :
    ∃ before, (∀ x ∈ before, isSpace x = true) ∧ isSpace c = false ∧ l = before ++ c :: rest :=
  ⟨l.takeWhile isSpace, fun _ hx => List.mem_takeWhile_imp hx, Input.head_of_dropWhile h,
    h ▸ List.takeWhile_append_dropWhile.symm⟩

/-- Two characters of a code in either case have the same data behind them. -/
theorem token_both (mark : Char) {before between : List Char} {c c' d d' : Char}
    (hbefore : ∀ x ∈ before, isSpace x = true) (hspace : isSpace c = false)
    (hbetween : ∀ x ∈ between, isSpace x = true) (hspace' : isSpace d = false)
    (hc : SameLetter c c') (hd : SameLetter d d') (data : List Char) :
    ∃ kept, token (mark :: (before ++ c :: (between ++ d :: data))) =
        .ofChars (mark :: c :: d :: kept) ∧
      token (mark :: (before ++ c' :: (between ++ d' :: data))) =
        .ofChars (mark :: c' :: d' :: kept) := by
  refine ⟨if isFieldData c d then data else data.filter (!isSpace ·), ?_, ?_⟩
  · rw [token, clean_code hbefore hspace hbetween hspace']
  · rw [token, clean_code hbefore (hc.isSpace ▸ hspace) hbetween (hd.isSpace ▸ hspace'),
      isFieldData_congr hc hd]

/-- The tokens of the same piece in either case: nothing has changed, or the one character of a code
that is too short, or the code in front of the same data. -/
theorem Recased.token (h : Recased piece piece') :
    token piece' = token piece ∨
    (∃ mark c c', SameLetter c c' ∧ token piece = .ofChars [mark, c] ∧
      token piece' = .ofChars [mark, c']) ∨
    ∃ mark c c' d d' data, SameLetter c c' ∧ SameLetter d d' ∧
      (SameLetter c 'A' → d = d' ∨ d = '@') ∧ token piece = .ofChars (mark :: c :: d :: data) ∧
      token piece' = .ofChars (mark :: c' :: d' :: data) := by
  -- a piece is left alone, or one or both letters of its code change their case
  cases h with
  | same => exact .inl rfl
  | @both mark c c' d d' before between data hmark hbefore hspace hbetween hspace' hc hd hfont =>
    obtain ⟨kept, htoken, htoken'⟩ := token_both mark hbefore hspace hbetween hspace' hc hd data
    exact .inr (.inr ⟨mark, c, c', d, d', kept, hc, hd, fun h => .inr (hfont h), htoken, htoken'⟩)
  | @first mark c c' before rest hmark hbefore hspace hc =>
    cases hrest : rest.dropWhile isSpace with
    | nil =>
      have htoken {x : Char} (hx : isSpace x = false) :
          Script.token (mark :: (before ++ x :: rest)) = .ofChars [mark, x] := by
        simp [Script.token, clean, List.dropWhile_append_of_pos hbefore, hx, hrest]
      exact .inr (.inl ⟨mark, c, c', hc, htoken hspace, htoken (hc.isSpace ▸ hspace)⟩)
    | cons d data =>
      obtain ⟨between, hbetween, hd, rfl⟩ := exists_spaces hrest
      obtain ⟨kept, htoken, htoken'⟩ := token_both mark hbefore hspace hbetween hd hc rfl data
      exact .inr (.inr ⟨mark, c, c', d, d, kept, hc, rfl, fun _ => .inl rfl, htoken, htoken'⟩)

end Tokens

end Script

namespace Command

open Script (SameLetter)

/-- A command is made of the capitals of its code and of what follows it. Only behind the font
command it matters how the second character is written. -/
theorem parse_congr {m : CodePoint} {rest rest' : List CodePoint}
    (hupper : Text.upper ⟨rest'.take 2⟩ = Text.upper ⟨rest.take 2⟩)
    (hdrop : rest'.drop 2 = rest.drop 2)
    (hfont : (Text.upper ⟨rest.take 2⟩).points.head? = some (.char 'A') →
      Text.upper ⟨rest.take 2⟩ ≠ "A@" → rest'.drop 1 = rest.drop 1) :
    parse ⟨m :: rest'⟩ = parse ⟨m :: rest⟩ := by
  by_cases hhead : (Text.upper ⟨rest.take 2⟩).points.head? = some (.char 'A')
  · by_cases hat : Text.upper ⟨rest.take 2⟩ = "A@"
    · rw [parse_of_code fun _ => hat, parse_of_code fun _ => hupper.trans hat, hupper, hdrop]
    · rw [parse_of_font hhead hat, parse_of_font (hupper ▸ hhead) (hupper ▸ hat), hfont hhead hat]
  · rw [parse_of_code fun h => absurd h hhead, parse_of_code fun h => absurd (hupper ▸ h) hhead,
      hupper, hdrop]

end Command

namespace Script

variable {piece piece' : List Char}

/-- A piece says the same command in either case. -/
theorem Recased.parse (h : Recased piece piece') (hascii : Command.HasAsciiCode (Script.token piece)) :
    Command.parse (Script.token piece') = Command.parse (Script.token piece) := by
  obtain heq | ⟨mark, c, c', hc, htoken, htoken'⟩ |
    ⟨mark, c, c', d, d', data, hc, hd, hsecond, htoken, htoken'⟩ := h.token
  · rw [heq]
  · rw [htoken, htoken']
    refine Command.parse_congr ?_ rfl fun _ _ => rfl
    simp [Text.upper, Text.upperPoint, hc.upperChar]
  · rw [htoken, htoken']
    rw [htoken] at hascii
    refine Command.parse_congr ?_ rfl fun hhead hat => ?_
    · simp [Text.upper, Text.upperPoint, hc.upperChar, hd.upperChar]
    · -- a font command, whose second character has not changed
      obtain ⟨x, hx⟩ := List.length_eq_one_iff.1
        (Text.length_upperChar (hascii.toNat_lt c (by simp)))
      have hupper : Text.upper ⟨[.char c, .char d]⟩ =
          ⟨.char x :: (Text.upperChar d).map .char⟩ := by
        simp [Text.upper, Text.upperPoint, hx]
      have hA : x = 'A' := by
        have : some (CodePoint.char x) = some (.char 'A') :=
          (congrArg (·.points.head?) hupper).symm.trans hhead
        simpa using this
      have hletter : SameLetter c 'A' :=
        sameLetter_of_upperChar (hascii.toNat_lt c (by simp)) (by simp [hx, hA])
      rcases hsecond hletter with rfl | rfl
      · rfl
      · exact absurd (hupper.trans (hA ▸ rfl)) hat

/-! ## What is kept of a piece -/

/-- Of a piece that is field data by its command everything behind the code is kept, of any other
all white space is dropped. -/
def KeepsOf (piece : List Char) (t : Text) : Prop :=
  if (Command.parse t).name = "FD" then
    ∃ data mark f d, WritesField data piece ∧ t = .ofChars (mark :: f :: d :: data)
  else t = .ofChars (piece.filter (!isSpace ·))

theorem filter_spaces {l : List Char} (h : ∀ x ∈ l, isSpace x = true) : l.filter (!isSpace ·) = [] :=
  List.filter_eq_nil_iff.2 fun x hx => by simp [h x hx]

/-- What is kept of a body that is no field data is all but its white space. -/
theorem clean_eq_filter {body : List Char} (h : beginsFieldData (clean body) = false) :
    clean body = body.filter (!isSpace ·) := by
  -- cleaning looks at the first two characters that are no space, so there may be none or one
  cases hbody : body.dropWhile isSpace with
  | nil =>
    rw [filter_spaces (List.dropWhile_eq_nil_iff.1 hbody)]
    simp [clean, hbody]
  | cons c rest =>
    obtain ⟨before, hbefore, hc, rfl⟩ := exists_spaces hbody
    rw [List.filter_append, filter_spaces hbefore, List.filter_cons_of_pos (by simp [hc])]
    cases hrest : rest.dropWhile isSpace with
    | nil =>
      rw [filter_spaces (List.dropWhile_eq_nil_iff.1 hrest)]
      simp [clean, hbody, hrest]
    | cons d data =>
      obtain ⟨between, hbetween, hd, rfl⟩ := exists_spaces hrest
      rw [clean_code hbefore hc hbetween hd] at h ⊢
      have hfield : isFieldData c d = false := h
      rw [List.filter_append, filter_spaces hbetween, List.filter_cons_of_pos (by simp [hd]), hfield]
      rfl

/-- What is kept of field data is the code and everything behind it. -/
theorem exists_writesField {mark : Char} {body : List Char} (hpiece : IsPiece (mark :: body))
    (h : beginsFieldData (clean body) = true) :
    ∃ f d data, WritesField data (mark :: body) ∧ clean body = f :: d :: data := by
  obtain ⟨m, b, heq, hmark, hbody⟩ := hpiece
  obtain ⟨rfl, rfl⟩ := List.cons.inj heq
  cases hfirst : body.dropWhile isSpace with
  | nil => simp [clean, hfirst, beginsFieldData] at h
  | cons f rest =>
    cases hsecond : rest.dropWhile isSpace with
    | nil => simp [clean, hfirst, hsecond, beginsFieldData] at h
    | cons d data =>
      obtain ⟨before, hbefore, hf, rfl⟩ := exists_spaces hfirst
      obtain ⟨between, hbetween, hd, rfl⟩ := exists_spaces hsecond
      rw [clean_code hbefore hf hbetween hd] at h ⊢
      have hcode : isFieldData f d = true := h
      have hdata : ∀ x ∈ data, isMark x = false := fun x hx => hbody x (by simp [hx])
      exact ⟨f, d, data, .intro hmark hcode hbefore hbetween hdata, by rw [if_pos hcode]⟩

end Script

namespace Command

open Script (beginsFieldData)

/-- A name that is not that of the font command is spelled by the capitals of the code. -/
theorem upper_of_name {mark : CodePoint} {rest : List CodePoint} {name : Text}
    (h : (parse ⟨mark :: rest⟩).name = name) (hname : name ≠ "A") :
    Text.upper ⟨rest.take 2⟩ = name := by
  unfold parse at h
  simp only at h
  split at h
  · exact absurd h.symm hname
  · exact h

/-- In ASCII, a command is named for field data if and only if its token begins with their code. -/
theorem name_eq_field_iff {mark : Char} {kept : List Char}
    (h : HasAsciiCode (.ofChars (mark :: kept))) :
    (parse (.ofChars (mark :: kept))).name = "FD" ↔ beginsFieldData kept = true := by
  constructor
  · intro hname
    have hupper := upper_of_name hname (by decide)
    -- a letter of an ASCII code has one capital, so the two capitals come from two letters
    have hcapital := fun x hx =>
      List.length_eq_one_iff.1 (Text.length_upperChar (h.toNat_lt x hx))
    rcases kept with _ | ⟨c, _ | ⟨d, data⟩⟩
    · cases hupper
    · obtain ⟨x, hx⟩ := hcapital c (by simp)
      simp [Text.upper, Text.upperPoint, hx, Text.ofString, Text.ofChars] at hupper
    · obtain ⟨x, hx⟩ := hcapital c (by simp)
      obtain ⟨y, hy⟩ := hcapital d (by simp)
      obtain ⟨rfl, rfl⟩ : x = 'F' ∧ y = 'D' := by
        simpa [Text.upper, Text.upperPoint, hx, hy, Text.ofString, Text.ofChars] using hupper
      have hF : Script.SameLetter c 'F' :=
        Script.sameLetter_of_upperChar (h.toNat_lt c (by simp)) (by simp [hx])
      have hD : Script.SameLetter d 'D' :=
        Script.sameLetter_of_upperChar (h.toNat_lt d (by simp)) (by simp [hy])
      exact Script.isFieldData_congr hF hD
  · intro hfield
    rcases kept with _ | ⟨f, _ | ⟨d, data⟩⟩
    · cases hfield
    · cases hfield
    · rw [parse_field hfield]

end Command

namespace Script

variable {piece : List Char} {text text' : List Char}

/-- The reader and the names agree on what field data are. -/
theorem keepsOf_token (hpiece : IsPiece piece) (hascii : Command.HasAsciiCode (token piece)) :
    KeepsOf piece (token piece) := by
  obtain ⟨mark, body, rfl, hmark, -⟩ := id hpiece
  have hname := Command.name_eq_field_iff hascii
  unfold KeepsOf
  split
  · next hfield =>
    obtain ⟨f, d, data, hwrites, hclean⟩ := exists_writesField hpiece (hname.1 hfield)
    exact ⟨data, mark, f, d, hwrites, by rw [token, hclean]⟩
  · next hother =>
    have hno : beginsFieldData (clean body) = false := by
      rw [← Bool.not_eq_true]
      exact fun h => hother (hname.2 h)
    rw [token, clean_eq_filter hno, List.filter_cons_of_pos (by simp [isSpace_of_isMark hmark])]

/-! ## Texts -/

/-- The tokens of a text by what stands in front of its first mark. -/
theorem tokens_append {front rest : List Char} (hfront : ∀ x ∈ front, isMark x = false)
    (hrest : ∀ x ∈ rest.head?, isMark x = true) :
    tokens (front ++ rest) =
      if front.all isSpace then .ok ((pieces rest).map token)
      else .error (.stray ((front.takeWhile isSpace).length + 1)) := by
  split
  · next hall =>
    rw [← tokens_of_mark hrest]
    unfold tokens
    rw [List.dropWhile_append_of_pos (List.all_eq_true.1 hall)]
    cases rest with
    | nil => rfl
    | cons c cs =>
      have hc : isMark c = true := hrest c rfl
      rw [List.dropWhile_cons_of_neg (by simp [isSpace_of_isMark hc])]
      simp only [hc, if_true]
  · next hall =>
    have hne : front.dropWhile isSpace ≠ [] := fun hnil =>
      hall (List.all_eq_true.2 (List.dropWhile_eq_nil_iff.1 hnil))
    obtain ⟨c, cs, hcs⟩ := List.exists_cons_of_ne_nil hne
    obtain ⟨htake, hdrop⟩ := Input.span_append hcs rest
    have hc : isMark c = false :=
      hfront c ((List.dropWhile_sublist isSpace).mem (hcs ▸ List.mem_cons_self))
    unfold tokens
    rw [htake, hdrop]
    simp [hc]

/-- The tokens of a text by its pieces, the first of which may be what stands in front of all
marks. -/
theorem tokens_of_pieces {p : List Char} {ps : List (List Char)} (h : pieces text = p :: ps) :
    tokens text =
      if p.head?.any isMark then .ok ((p :: ps).map token)
      else if p.all isSpace then .ok (ps.map token)
      else .error (.stray ((p.takeWhile isSpace).length + 1)) := by
  cases text with
  | nil => cases h
  | cons c cs =>
    have hpieces : pieces (c :: cs) =
        (c :: cs.takeWhile (!isMark ·)) :: pieces (cs.dropWhile (!isMark ·)) :=
      Input.splitBy_cons (fun c => !isMark c) c cs
    -- without a mark in front, the first piece is what stands before the first mark
    by_cases hc : isMark c = true
    · have hhead : ∀ x ∈ (c :: cs).head?, isMark x = true := by simpa using hc
      rw [tokens_of_mark hhead, h]
      obtain ⟨rfl, -⟩ := List.cons.inj (hpieces.symm.trans h)
      rw [if_pos (by simpa using hc)]
    · obtain ⟨rfl, rfl⟩ := List.cons.inj (hpieces.symm.trans h)
      have hfront : ∀ x ∈ c :: cs.takeWhile (!isMark ·), isMark x = false :=
        List.forall_mem_cons.2 ⟨by simpa using hc, fun x hx => by
          simpa using List.mem_takeWhile_imp hx⟩
      rw [if_neg (by simpa using hc), ← tokens_append hfront Input.of_mem_head_dropWhile,
        List.cons_append, List.takeWhile_append_dropWhile]

/-- The tokens of two texts whose pieces differ in the case of code letters only: the same fault, or
one token for each piece. -/
theorem tokens_recased (h : List.Forall₂ Recased (pieces text) (pieces text')) :
    (∃ fault, tokens text = .error fault ∧ tokens text' = .error fault) ∨
      ∃ ps ps', List.Forall₂ Recased ps ps' ∧ tokens text = .ok (ps.map token) ∧
        tokens text' = .ok (ps'.map token) := by
  have hempty {t : List Char} (ht : pieces t = []) : tokens t = .ok [] := by
    by_cases hne : t = []
    · rw [hne]
      rfl
    · exact absurd ht (pieces_ne_nil hne)
  cases hpieces : pieces text with
  | nil =>
    rw [hpieces, List.forall₂_nil_left_iff] at h
    exact .inr ⟨[], [], .nil, hempty hpieces, hempty h⟩
  | cons p ps =>
    rw [hpieces, List.forall₂_cons_left_iff] at h
    obtain ⟨p', ps', hp, hps, hpieces'⟩ := h
    rw [tokens_of_pieces hpieces, tokens_of_pieces hpieces', hp.head?_eq]
    split
    · exact .inr ⟨_, _, .cons hp hps, rfl, rfl⟩
    · next hhead =>
      -- what stands in front of all marks has no code
      obtain rfl := hp.eq_of_head (by simpa using hhead)
      split
      · exact .inr ⟨_, _, hps, rfl, rfl⟩
      · exact .inl ⟨_, rfl, rfl⟩

/-- So two such texts say the same commands, if the codes are spelled in ASCII. -/
theorem commands_of_recased (h : List.Forall₂ Recased (pieces text) (pieces text'))
    (hascii : ∀ ts, tokens text = .ok ts → ∀ t ∈ ts, Command.HasAsciiCode t) :
    commands text' = commands text := by
  rw [commands_eq, commands_eq]
  obtain ⟨fault, hfault, hfault'⟩ | ⟨ps, ps', hps, htokens, htokens'⟩ := tokens_recased h
  · rw [hfault, hfault']
  · have hcodes := hascii _ htokens
    rw [htokens, htokens']
    refine congrArg Except.ok ?_
    clear htokens htokens' hascii
    induction hps with
    | nil => rfl
    | cons hp _ ih =>
      rw [List.map_cons, List.forall_mem_cons] at hcodes
      simp only [List.map_cons, hp.parse hcodes.1, ih hcodes.2]

/-- The tokens of a text beside its pieces. -/
theorem keepsOf_of_tokens {ts : List Text} (h : tokens text = .ok ts)
    (hascii : ∀ t ∈ ts, Command.HasAsciiCode t) :
    List.Forall₂ KeepsOf (pieces (text.dropWhile isSpace)) ts := by
  have hboth {rest : List Char} (hmark : ∀ x ∈ rest.head?, isMark x = true)
      (hts : (pieces rest).map token = ts) : List.Forall₂ KeepsOf (pieces rest) ts := by
    subst hts
    rw [List.forall₂_map_right_iff, List.forall₂_same]
    exact fun p hp => keepsOf_token (isPiece_of_mem_pieces hmark p hp)
      (hascii _ (List.mem_map_of_mem hp))
  unfold tokens at h
  split at h
  · next hnil =>
    rw [hnil]
    exact hboth (by simp) (Except.ok.inj h)
  · next c rest hcons =>
    rw [hcons]
    split at h
    · next hc => exact hboth (by simpa using hc) (Except.ok.inj h)
    · cases h

end Script

namespace Reader

/-- A text and another that differ in the case of code letters only give the same commands, or the
same fault, as long as the codes of its tokens are spelled in ASCII. The token of a piece has kept
white space exactly when its command is named for field data: then all of it behind the code,
otherwise none. -/
theorem commands_recased (library : Codec.Library) (text text' : String)
    (h : List.Forall₂ Script.Recased (Script.pieces text.toList) (Script.pieces text'.toList)) :
    ∃ r r', ofText library "utf-8" text = .ok r ∧ ofText library "utf-8" text' = .ok r' ∧
      ((∀ tokens c, Input.readAll r.encoding r.cursor = .ok tokens c →
          ∀ t ∈ tokens, Command.HasAsciiCode t) →
        r'.commands.2 = r.commands.2 ∧
        ∀ tokens c, Input.readAll r.encoding r.cursor = .ok tokens c →
          List.Forall₂ Script.KeepsOf (Script.pieces (text.toList.dropWhile Script.isSpace))
            tokens) := by
  refine ⟨ofUtf8 text, ofUtf8 text', ofText_utf8 library text, ofText_utf8 library text',
    fun hascii => ?_⟩
  have hanswer := answer_readAll_ofUtf8 text
  cases hread : Input.readAll (ofUtf8 text).encoding (ofUtf8 text).cursor with
  -- if the text cannot be read there are no codes to ask about
  | error fault c =>
    rw [hread] at hanswer
    have hnone : ∀ ts, Script.tokens text.toList = .ok ts → ∀ t ∈ ts, Command.HasAsciiCode t := by
      intro ts hts
      cases hanswer.trans hts
    refine ⟨?_, fun tokens c h => by cases h⟩
    rw [commands_ofUtf8, commands_ofUtf8, Script.commands_of_recased h hnone]
  | ok tokens c =>
    rw [hread] at hanswer
    have hcodes := hascii tokens c hread
    have hall : ∀ ts, Script.tokens text.toList = .ok ts → ∀ t ∈ ts, Command.HasAsciiCode t := by
      intro ts hts
      obtain rfl : tokens = ts := Except.ok.inj (hanswer.trans hts)
      exact hcodes
    refine ⟨?_, fun tokens' c' h => ?_⟩
    · rw [commands_ofUtf8, commands_ofUtf8, Script.commands_of_recased h hall]
    · cases h
      exact Script.keepsOf_of_tokens hanswer.symm hcodes

/-- Field data, both font commands and a code with white space inside, each in letters of the other
case; the designation of the font and the data stay as they are. -/
theorem commands_recased_label :
    ∃ r tokens c, ofText .standard "utf-8" "\n^f d a ß^aB, 1~x\tz^a@n" = .ok r ∧
      Input.readAll r.encoding r.cursor = .ok tokens c ∧
      (∃ r', ofText .standard "utf-8" "\n^F D a ß^AB, 1~X\tz^A@n" = .ok r' ∧
        r'.commands.2 = r.commands.2) ∧
      tokens.map Command.parse = [⟨some (.char '^'), "FD", [" a ß"]⟩,
        ⟨some (.char '^'), "A", ["B", "1"]⟩, ⟨some (.char '~'), "XZ", []⟩,
        ⟨some (.char '^'), "A@", ["n"]⟩] ∧
      List.Forall₂ Script.KeepsOf ["^f d a ß".toList, "^aB, 1".toList, "~x\tz".toList,
        "^a@n".toList] tokens := by
  have hpieces : Script.pieces "\n^f d a ß^aB, 1~x\tz^a@n".toList =
      ["\n".toList, "^f d a ß".toList, "^aB, 1".toList, "~x\tz".toList, "^a@n".toList] := by
    decide
  have hpieces' : Script.pieces "\n^F D a ß^AB, 1~X\tz^A@n".toList =
      ["\n".toList, "^F D a ß".toList, "^AB, 1".toList, "~X\tz".toList, "^A@n".toList] := by
    decide
  have hrecased : List.Forall₂ Script.Recased
      (Script.pieces "\n^f d a ß^aB, 1~x\tz^a@n".toList)
      (Script.pieces "\n^F D a ß^AB, 1~X\tz^A@n".toList) := by
    rw [hpieces, hpieces']
    refine .cons (.same _) (.cons ?_ (.cons ?_ (.cons ?_ (.cons ?_ .nil))))
    · exact @Script.Recased.both '^' 'f' 'F' 'd' 'D' [] [' '] _ rfl (by simp) rfl
        (List.forall_mem_singleton.2 rfl) rfl rfl rfl
        fun hA => absurd hA (by unfold Script.SameLetter; decide)
    · exact @Script.Recased.first '^' 'a' 'A' [] _ rfl (by simp) rfl rfl
    · exact @Script.Recased.first '~' 'x' 'X' [] _ rfl (by simp) rfl rfl
    · exact @Script.Recased.both '^' 'a' 'A' '@' '@' [] [] _ rfl (by simp) rfl (by simp) rfl rfl
        rfl fun _ => rfl
  obtain ⟨r, r', hr, hr', hall⟩ := commands_recased .standard _ _ hrecased
  obtain rfl : ofUtf8 "\n^f d a ß^aB, 1~x\tz^a@n" = r := Except.ok.inj ((ofText_utf8 _ _).symm.trans hr)
  have htokens : Script.tokens "\n^f d a ß^aB, 1~x\tz^a@n".toList =
      .ok ["^fd a ß", "^aB,1", "~xz", "^a@n"] := by decide
  have hanswer := (answer_readAll_ofUtf8 _).trans htokens
  cases hread : Input.readAll (ofUtf8 "\n^f d a ß^aB, 1~x\tz^a@n").encoding
      (ofUtf8 "\n^f d a ß^aB, 1~x\tz^a@n").cursor with
  | error fault c =>
    rw [hread] at hanswer
    cases hanswer
  | ok tokens c =>
    rw [hread] at hanswer
    obtain rfl : tokens = ["^fd a ß", "^aB,1", "~xz", "^a@n"] := Except.ok.inj hanswer
    have hascii : ∀ t ∈ (["^fd a ß", "^aB,1", "~xz", "^a@n"] : List Text),
        Command.HasAsciiCode t := by
      unfold Command.HasAsciiCode
      decide
    obtain ⟨hcommands, hkeeps⟩ := hall fun ts d h => by
      cases hread.symm.trans h
      exact hascii
    refine ⟨_, _, c, hr, hread, ⟨r', hr', hcommands⟩, by decide, ?_⟩
    have hbehind : Script.pieces ("\n^f d a ß^aB, 1~x\tz^a@n".toList.dropWhile Script.isSpace) =
        ["^f d a ß".toList, "^aB, 1".toList, "~x\tz".toList, "^a@n".toList] := by decide
    rw [← hbehind]
    exact hkeeps _ c hread

end Reader

end LabelPress
