import LabelPress.Proofs.Input.Script

/-!
# Pieces and what is kept of them

A text is cut before every mark. So a piece is a mark with what stands behind it up to the next one
(`IsPiece`), the pieces of a text that is put together from pieces are these again
(`pieces_flatten`), and what begins with a mark is read as it is behind any text that has a mark
itself (`commands_append`).

Of a piece white space is dropped. What is kept is `IsTight`: of this nothing more would be dropped.
-/

namespace LabelPress.Script

/-! ## Pieces -/

/-- A mark and what stands behind it up to the next one. -/
def IsPiece (piece : List Char) : Prop :=
  ∃ m body, piece = m :: body ∧ isMark m = true ∧ ∀ x ∈ body, isMark x = false

instance (piece : List Char) : Decidable (IsPiece piece) :=
  match piece with
  | [] => isFalse fun ⟨_, _, h, _⟩ => List.cons_ne_nil _ _ h.symm
  | m :: body =>
    decidable_of_iff (isMark m = true ∧ body.any isMark = false) (by simp [IsPiece])

/-- What begins with a mark is cut off, whatever stands in front of it. -/
theorem pieces_append (text : List Char) {rest : List Char}
    (hrest : ∀ c ∈ rest.head?, isMark c = true) :
    pieces (text ++ rest) = pieces text ++ pieces rest :=
  List.splitBy_append fun _ _ c hc => by simp [hrest c hc]

/-- A piece is one piece. -/
theorem pieces_of_isPiece {piece : List Char} (h : IsPiece piece) : pieces piece = [piece] := by
  obtain ⟨m, body, rfl, -, hbody⟩ := h
  have hpass : ∀ x ∈ body, (!isMark x) = true := fun x hx => by simp [hbody x hx]
  have hchain := Input.isChain_cons (p := fun c => !isMark c) m hpass
  exact List.splitBy_of_isChain (List.cons_ne_nil m body) hchain

/-- It begins with a mark, also in front of something else. -/
theorem isMark_of_head {piece : List Char} (h : IsPiece piece) (rest : List Char) :
    ∀ c ∈ (piece ++ rest).head?, isMark c = true := by
  obtain ⟨m, body, rfl, hm, -⟩ := h
  intro c hc
  rw [← Option.some.inj hc]
  exact hm

/-- Pieces in a row begin with a mark. -/
theorem head_flatten {ps : List (List Char)} (h : ∀ p ∈ ps, IsPiece p) :
    ∀ c ∈ ps.flatten.head?, isMark c = true := by
  cases ps with
  | nil => simp
  | cons p ps => exact isMark_of_head (h p List.mem_cons_self) ps.flatten

/-- Pieces in a row are cut where they were put together. -/
theorem pieces_flatten {ps : List (List Char)} (h : ∀ p ∈ ps, IsPiece p) :
    pieces ps.flatten = ps := by
  induction ps with
  | nil => rfl
  | cons p ps ih =>
    have hps : ∀ p ∈ ps, IsPiece p := fun q hq => h q (List.mem_cons_of_mem p hq)
    rw [List.flatten_cons, pieces_append p (head_flatten hps),
      pieces_of_isPiece (h p List.mem_cons_self), ih hps, List.singleton_append]

/-- A text that begins with a mark is cut into pieces. -/
theorem isPiece_of_mem_pieces {text : List Char} (hmark : ∀ c ∈ text.head?, isMark c = true) :
    ∀ p ∈ pieces text, IsPiece p := by
  intro p hp
  have hfirst : ∀ c ∈ text.head?, (!isMark c) = false := fun c hc => by simp [hmark c hc]
  obtain ⟨m, body, rfl, hm, hbody⟩ := Input.exists_of_mem_splitBy hfirst p hp
  exact ⟨m, body, rfl, by simpa using hm, fun x hx => by simpa using hbody x hx⟩

theorem pieces_ne_nil {text : List Char} (h : text ≠ []) : pieces text ≠ [] := by
  unfold pieces
  rwa [Ne, List.splitBy_eq_nil]

/-! ## Cleaning twice -/

/-- Behind a mark there is no white space but in field data. -/
def IsTight : List Char → Prop
  | [] => True
  | [c] => isSpace c = false
  | c :: d :: data => isSpace c = false ∧ isSpace d = false ∧
      (isFieldData c d = false → ∀ x ∈ data, isSpace x = false)

theorem isTight_of_all {kept : List Char} (h : ∀ x ∈ kept, isSpace x = false) : IsTight kept := by
  match kept with
  | [] => trivial
  | [c] => exact h c List.mem_cons_self
  | c :: d :: data =>
    exact ⟨h c (by simp), h d (by simp), fun _ x hx => h x (by simp [hx])⟩

/-- To clean a piece leaves no space but in field data. -/
theorem isTight_clean (body : List Char) : IsTight (clean body) := by
  unfold clean
  split
  · trivial
  · next c rest hrest =>
    have hc : isSpace c = false := Input.head_of_dropWhile hrest
    split
    · exact hc
    · next d data hdata =>
      refine ⟨hc, Input.head_of_dropWhile hdata, fun hfield x hx => ?_⟩
      rw [hfield] at hx
      simpa using (List.mem_filter.1 hx).2

/-- White space in front of either character of the code is dropped, and in what follows them unless
these are field data. -/
theorem clean_code {before between data : List Char} {c d : Char}
    (hbefore : ∀ x ∈ before, isSpace x = true) (hc : isSpace c = false)
    (hbetween : ∀ x ∈ between, isSpace x = true) (hd : isSpace d = false) :
    clean (before ++ c :: (between ++ d :: data)) =
      c :: d :: if isFieldData c d then data else data.filter (!isSpace ·) := by
  unfold clean
  rw [List.dropWhile_append_of_pos hbefore, List.dropWhile_cons_of_neg (by simp [hc])]
  simp only
  rw [List.dropWhile_append_of_pos hbetween, List.dropWhile_cons_of_neg (by simp [hd])]

/-- Nothing is dropped where there is nothing to drop. -/
theorem clean_of_isTight {kept : List Char} (h : IsTight kept) : clean kept = kept := by
  -- tightness is said of the first two characters and of the data behind them, like cleaning
  match kept, h with
  | [], _ => rfl
  | [c], hc =>
    have hc : isSpace c = false := hc
    simp [clean, hc]
  | c :: d :: data, ⟨hc, hd, hdata⟩ =>
    have hall : isFieldData c d = false → data.filter (!isSpace ·) = data := fun hfield =>
      List.filter_eq_self.2 fun x hx => by simp [hdata hfield x hx]
    unfold clean
    rw [List.dropWhile_cons_of_neg (by simp [hc])]
    simp only
    rw [List.dropWhile_cons_of_neg (by simp [hd])]
    simp only
    split
    · rfl
    · next hfield => rw [hall (by simpa using hfield)]

/-- What is kept stands in the piece in the same order. -/
theorem clean_sublist (body : List Char) : (clean body).Sublist body := by
  have hdrop {l : List Char} {y : Char} {rest kept : List Char} (hl : l.dropWhile isSpace = y :: rest)
      (hkept : kept.Sublist rest) : (y :: kept).Sublist l :=
    (hkept.cons_cons y).trans (hl ▸ List.dropWhile_sublist isSpace)
  unfold clean
  split
  · exact List.nil_sublist body
  · next c rest hrest =>
    split
    · exact hdrop hrest (List.nil_sublist rest)
    · next d data hdata =>
      refine hdrop hrest (hdrop hdata ?_)
      split
      · exact List.Sublist.refl data
      · exact List.filter_sublist

/-! ## The tokens and commands of a text -/

theorem isSpace_of_isMark {c : Char} (h : isMark c = true) : isSpace c = false := by
  rcases Bool.or_eq_true_iff.1 h with h | h <;> rw [beq_iff_eq.1 h] <;> decide

/-- A text that begins with a mark, or is empty, has a token for every piece. -/
theorem tokens_of_mark {text : List Char} (hmark : ∀ c ∈ text.head?, isMark c = true) :
    tokens text = .ok ((pieces text).map token) := by
  cases text with
  | nil => rfl
  | cons c rest =>
    have hc : isMark c = true := hmark c rfl
    have hspace : ¬ isSpace c = true := by simp [isSpace_of_isMark hc]
    unfold tokens
    rw [List.dropWhile_cons_of_neg hspace]
    simp only [hc, if_true]

/-- Every token is what has been kept of a piece. -/
theorem of_mem_tokens {text : List Char} {ts : List Text} (h : tokens text = .ok ts) :
    ∀ t ∈ ts, ∃ m kept, t = .ofChars (m :: kept) ∧ isMark m = true ∧
      (∀ x ∈ kept, isMark x = false) ∧ IsTight kept := by
  unfold tokens at h
  split at h
  · cases h
    simp
  · next c rest _ =>
    split at h
    · next hc =>
      cases h
      have hpieces : ∀ p ∈ pieces (c :: rest), IsPiece p := by
        apply isPiece_of_mem_pieces
        intro d hd
        rw [← Option.some.inj hd]
        exact hc
      intro t ht
      obtain ⟨piece, hmem, rfl⟩ := List.mem_map.1 ht
      obtain ⟨m, body, rfl, hm, hbody⟩ := hpieces piece hmem
      have hclean : ∀ x ∈ clean body, isMark x = false := fun x hx =>
        hbody x ((clean_sublist body).mem hx)
      exact ⟨m, clean body, rfl, hm, hclean, isTight_clean body⟩
    · cases h

/-- A token holds what its piece holds, in the same order. -/
theorem points_token_sublist (piece : List Char) :
    (token piece).points.Sublist (piece.map .char) := by
  cases piece with
  | nil => exact List.nil_sublist _
  | cons mark body => exact ((clean_sublist body).cons_cons mark).map _

/-- The characters of the tokens stand in the text in the same order. -/
theorem points_tokens_sublist {text : List Char} {ts : List Text} (h : tokens text = .ok ts) :
    (ts.flatMap (·.points)).Sublist (text.map .char) := by
  have hpieces (ps : List (List Char)) :
      ((ps.map token).flatMap (·.points)).Sublist (ps.flatten.map .char) := by
    induction ps with
    | nil => exact List.nil_sublist _
    | cons piece ps ih =>
      rw [List.map_cons, List.flatMap_cons, List.flatten_cons, List.map_append]
      exact (points_token_sublist piece).append ih
  unfold tokens at h
  split at h
  · cases h
    exact List.nil_sublist _
  · next c rest hrest =>
    split at h
    · cases h
      have hall := hpieces (pieces (c :: rest))
      have hflatten : (pieces (c :: rest)).flatten = c :: rest := List.flatten_splitBy _ _
      -- the pieces in a row are the text again, but for the white space in front
      rw [hflatten, ← hrest] at hall
      rw [← hrest]
      exact hall.trans ((List.dropWhile_sublist isSpace).map _)
    · cases h

/-- A piece alone is one command. -/
theorem commands_of_isPiece {piece : List Char} (h : IsPiece piece) :
    commands piece = .ok [command piece] := by
  have hhead := isMark_of_head h []
  rw [List.append_nil] at hhead
  rw [commands_eq, tokens_of_mark hhead, pieces_of_isPiece h, command_eq]
  rfl

/-- A mark, or what stands in front of it, ends the white space. -/
theorem dropWhile_isSpace_ne_nil {text : List Char} (h : ∃ c ∈ text, isMark c = true) :
    text.dropWhile isSpace ≠ [] := by
  obtain ⟨m, hm, hmark⟩ := h
  intro hnil
  have hspace := List.dropWhile_eq_nil_iff.1 hnil m hm
  rw [isSpace_of_isMark hmark] at hspace
  cases hspace

/-- What begins with a mark is read as it is, whatever stands in front of it, as long as a mark
stands there too. -/
theorem commands_append {text rest : List Char} (htext : ∃ c ∈ text, isMark c = true)
    (hrest : ∀ c ∈ rest.head?, isMark c = true) :
    commands (text ++ rest) = (commands text).map (· ++ (pieces rest).map command) := by
  obtain ⟨c, cs, hcs⟩ := List.exists_cons_of_ne_nil (dropWhile_isSpace_ne_nil htext)
  obtain ⟨htake, hdrop⟩ := Input.span_append hcs rest
  unfold commands
  rw [hdrop, htake, hcs]
  simp only
  split
  · rw [← List.cons_append, pieces_append _ hrest, List.map_append]
    rfl
  · rfl

/-- A text with a mark in it has a command. -/
theorem commands_ne_nil {text : List Char} {cs : List Command}
    (htext : ∃ c ∈ text, isMark c = true) (h : commands text = .ok cs) : cs ≠ [] := by
  unfold commands at h
  split at h
  · next hnil => exact absurd hnil (dropWhile_isSpace_ne_nil htext)
  · split at h
    · cases h
      rw [Ne, List.map_eq_nil_iff]
      exact pieces_ne_nil (List.cons_ne_nil _ _)
    · cases h

end LabelPress.Script
