import LabelPress.Command
import LabelPress.Drawing.Basic
import LabelPress.Label.Argument
import LabelPress.Proofs.Input.Pieces

/-!
# Whole texts

A text is whole if it has no halves of pairs, so that it is a string. The character sets without
escapes have whole texts only, and whatever is made of whole texts is whole: pieces of them, several
of them one after another, their capitals.
-/

namespace LabelPress

namespace Text

/-- Every code point is a character. -/
def IsWhole (t : Text) : Prop :=
  ∀ p ∈ t.points, ∃ c, p = .char c

variable {s t : Text}

/-- The code of a character is the number that it was made of, if there is one of this number. -/
theorem toNat_ofNat {n : Nat} (h : n.isValidChar) : (Char.ofNat n).toNat = n := by
  unfold Char.ofNat
  rw [dif_pos h]
  rfl

theorem ofChars_append (cs ds : List Char) : ofChars (cs ++ ds) = ofChars cs ++ ofChars ds :=
  congrArg Text.mk List.map_append

/-- Different characters make different texts. -/
theorem ofChars_injective : Function.Injective ofChars := by
  intro cs ds h
  have hinj : Function.Injective CodePoint.char := fun _ _ => CodePoint.char.inj
  exact List.map_injective_iff.2 hinj (congrArg Text.points h)

@[simp] theorem isWhole_ofChars (cs : List Char) : (ofChars cs).IsWhole := by
  intro p hp
  obtain ⟨c, -, rfl⟩ := List.mem_map.1 hp
  exact ⟨c, rfl⟩

@[simp] theorem isWhole_ofString (s : String) : (ofString s).IsWhole :=
  isWhole_ofChars _

/-- A text whose code points are among those of a whole one is whole. -/
theorem IsWhole.mono (hs : s.IsWhole) (h : ∀ p ∈ t.points, p ∈ s.points) : t.IsWhole :=
  fun p hp => hs p (h p hp)

/-- Whole texts after one another are whole. -/
theorem IsWhole.append (hs : s.IsWhole) (ht : t.IsWhole) : (s ++ t).IsWhole := by
  intro p hp
  rcases List.mem_append.1 hp with hp | hp
  · exact hs p hp
  · exact ht p hp

theorem IsWhole.take (h : t.IsWhole) (n : Nat) : (t.take n).IsWhole :=
  h.mono fun _ hp => List.mem_of_mem_take hp

theorem IsWhole.drop (h : t.IsWhole) (n : Nat) : (t.drop n).IsWhole :=
  h.mono fun _ hp => List.mem_of_mem_drop hp

/-- A whole text stays whole when the white space around it is taken away. -/
theorem IsWhole.trim (h : t.IsWhole) : t.trim.IsWhole := by
  apply h.mono
  intro p hp
  unfold Text.trim trimBoth at hp
  have hfirst := (List.dropWhile_sublist _).mem (List.mem_reverse.1 hp)
  exact (List.dropWhile_sublist _).mem (List.mem_reverse.1 hfirst)

/-- Capitals of characters are characters. -/
theorem IsWhole.upper (h : t.IsWhole) : t.upper.IsWhole := by
  intro p hp
  obtain ⟨q, hq, hp⟩ := List.mem_flatMap.1 hp
  obtain ⟨c, rfl⟩ := h q hq
  obtain ⟨d, -, rfl⟩ := List.mem_map.1 hp
  exact ⟨d, rfl⟩

/-- Between the first text and the others stands the separator. -/
theorem intercalate_cons_cons (s t u : Text) (ts : List Text) :
    intercalate s (t :: u :: ts) = t ++ s ++ intercalate s (u :: ts) := by
  unfold intercalate
  rw [List.map_cons, List.map_cons, List.intercalate_cons_cons]
  rfl

@[simp] theorem isWhole_append : (s ++ t).IsWhole ↔ s.IsWhole ∧ t.IsWhole :=
  ⟨fun h => ⟨h.mono fun _ => List.mem_append_left _, h.mono fun _ => List.mem_append_right _⟩,
    fun h => h.1.append h.2⟩

/-- Texts with a whole text between any two of them are whole if all of them are, and only then. -/
theorem isWhole_intercalate (hs : s.IsWhole) {ts : List Text} :
    (intercalate s ts).IsWhole ↔ ∀ t ∈ ts, t.IsWhole := by
  induction ts with
  | nil => simp [intercalate, IsWhole]
  | cons t ts ih =>
    cases ts with
    | nil => simp [intercalate, IsWhole]
    | cons u ts =>
      rw [intercalate_cons_cons, isWhole_append, isWhole_append, ih,
        List.forall_mem_cons (a := t)]
      exact ⟨fun h => ⟨h.1.1, h.2⟩, fun h => ⟨⟨h.1, hs⟩, h.2⟩⟩

/-- The pieces of a list hold its items, without those at which it is cut. -/
theorem of_mem_splitOnP {A : Type} {q : A → Bool} {l piece : List A} (h : piece ∈ l.splitOnP q) :
    ∀ a ∈ piece, a ∈ l ∧ q a = false := by
  induction l generalizing piece with
  | nil =>
    rw [List.splitOnP_nil, List.mem_singleton] at h
    subst h
    simp
  | cons b l ih =>
    rw [List.splitOnP_cons_eq_if_modifyHead] at h
    intro a ha
    split at h
    · rcases List.mem_cons.1 h with rfl | hmem
      · simp at ha
      · exact ⟨List.mem_cons_of_mem b (ih hmem a ha).1, (ih hmem a ha).2⟩
    · next hb =>
      -- an item at which nothing is cut stands in front of the first piece
      obtain ⟨first, others, hpieces⟩ := List.exists_cons_of_ne_nil (List.splitOnP_ne_nil q l)
      rw [hpieces, List.modifyHead_cons] at h
      rcases List.mem_cons.1 h with rfl | hmem
      · rcases List.mem_cons.1 ha with rfl | ha
        · exact ⟨List.mem_cons_self, by simpa using hb⟩
        · have hfirst : first ∈ l.splitOnP q := by simp [hpieces]
          exact ⟨List.mem_cons_of_mem b (ih hfirst a ha).1, (ih hfirst a ha).2⟩
      · have hother : piece ∈ l.splitOnP q := by simp [hpieces, hmem]
        exact ⟨List.mem_cons_of_mem b (ih hother a ha).1, (ih hother a ha).2⟩

/-- The parts of a text hold its code points, but not the one at which it was split. -/
theorem of_mem_splitOn {c : Char} {u : Text} (h : u ∈ t.splitOn c) :
    ∀ p ∈ u.points, p ∈ t.points ∧ p ≠ .char c := by
  obtain ⟨piece, hpiece, rfl⟩ := List.mem_map.1 h
  intro p hp
  obtain ⟨hmem, hne⟩ := of_mem_splitOnP hpiece p hp
  exact ⟨hmem, by simpa using hne⟩

theorem IsWhole.splitOn (h : t.IsWhole) (c : Char) : ∀ u ∈ t.splitOn c, u.IsWhole :=
  fun _ hu => h.mono fun p hp => (of_mem_splitOn hu p hp).1

/-- A whole text is a row of characters. -/
theorem IsWhole.eq_ofChars (h : t.IsWhole) : ∃ cs, t = ofChars cs := by
  obtain ⟨points⟩ := t
  induction points with
  | nil => exact ⟨[], rfl⟩
  | cons p points ih =>
    obtain ⟨c, rfl⟩ := h _ List.mem_cons_self
    obtain ⟨cs, hcs⟩ := ih fun q hq => h q (List.mem_cons_of_mem _ hq)
    refine ⟨c :: cs, ?_⟩
    rw [Text.mk.injEq] at hcs ⊢
    rw [hcs]
    rfl

/-- A whole text is a string. -/
theorem IsWhole.string? (h : t.IsWhole) : ∃ string, t.string? = some string := by
  obtain ⟨cs, rfl⟩ := h.eq_ofChars
  refine ⟨String.ofList cs, ?_⟩
  unfold Text.string?
  rw [chars?_ofChars, Option.map_some]

/-- Only its own text gives a string. -/
theorem eq_of_string? {string : String} (h : t.string? = some string) : t = ofString string := by
  have hchars {ps : List CodePoint} {cs : List Char} (h : ps.mapM (·.char?) = some cs) :
      ps = cs.map .char := by
    induction ps generalizing cs with
    | nil =>
      cases h
      rfl
    | cons p ps ih =>
      rw [List.mapM_cons] at h
      obtain ⟨c, hc, h⟩ := Option.bind_eq_some_iff.1 h
      obtain ⟨rest, hrest, h⟩ := Option.bind_eq_some_iff.1 h
      cases h
      cases p with
      | char d =>
        cases hc
        rw [ih hrest, List.map_cons]
      | half k => cases hc
  obtain ⟨cs, hcs, rfl⟩ := Option.map_eq_some_iff.1 h
  rw [ofString, String.toList_ofList]
  exact congrArg Text.mk (hchars hcs)

end Text

/-! ## What is read -/

theorem Except.map_eq_ok {E A B : Type} {x : Except E A} {f : A → B} {b : B}
    (h : f <$> x = .ok b) : ∃ a, x = .ok a ∧ f a = b := by
  cases x with
  | ok a =>
    cases h
    exact ⟨a, rfl, rfl⟩
  | error e => cases h

/-- Only escapes write halves. -/
theorem Charset.isWhole_of_decode {set : Charset} (hset : set ≠ .escapedUnicode)
    {bytes : List UInt8} {t : Text} (h : set.decode bytes = .ok t) : t.IsWhole := by
  cases set with
  | escapedUnicode => exact absurd rfl hset
  | latin1 =>
    cases h
    exact Text.isWhole_ofChars _
  | utf8 | ascii | windows1252 | latin9 | codePage437 =>
    obtain ⟨cs, -, rfl⟩ := Except.map_eq_ok h
    exact Text.isWhole_ofChars cs

namespace Input

variable {e : Encoding} {set : Charset} {p : Nat}

/-- A codec that gives characters makes whole tokens. Escapes, which can name half of a pair, are
the one set that has to be left out. -/
theorem isWhole_of_pieceTokens (hcodec : e.codec = set.codec) (hset : set ≠ .escapedUnicode)
    {ps : List (List UInt8)} {ts : List Text} (h : pieceTokens e p ps = .ok ts) : ∀ t ∈ ts, t.IsWhole := by
  -- induction on the pieces, each of which is decoded on its own
  induction ps generalizing p ts with
  | nil =>
    cases h
    simp
  | cons piece rest ih =>
    unfold pieceTokens at h
    split at h
    · cases h
    · next t ht =>
      split at h
      · cases h
      · next us hus =>
        cases h
        refine List.forall_mem_cons.2 ⟨?_, ih hus⟩
        unfold pieceToken at ht
        split at ht
        · next hdecode =>
          cases ht
          rw [Encoding.decode, hcodec] at hdecode
          exact Charset.isWhole_of_decode hset (Charset.codec_decode_eq_ok.1 hdecode)
        · cases ht

/-- All tokens are whole. -/
theorem isWhole_of_tokens (hcodec : e.codec = set.codec) (hset : set ≠ .escapedUnicode)
    {bytes : List UInt8} {ts : List Text} (h : tokens e p bytes = .ok ts) : ∀ t ∈ ts, t.IsWhole := by
  unfold tokens at h
  split at h
  · cases h
    simp
  · simp only at h
    split at h
    · exact isWhole_of_pieceTokens hcodec hset h
    · cases h

end Input

/-! ## Arguments -/

/-- The arguments of a whole command are whole. -/
theorem Command.isWhole_splitArgs {t : Text} (h : t.IsWhole) :
    ∀ u ∈ Command.splitArgs t, u.IsWhole := by
  unfold Command.splitArgs
  split
  · simp
  · exact h.splitOn ','

/-- The arguments of a command are whole if its token is. -/
theorem Command.isWhole_parse {token : Text} (h : token.IsWhole) :
    ∀ t ∈ (Command.parse token).args, t.IsWhole := by
  unfold Command.parse
  simp only
  split
  · exact Command.isWhole_splitArgs (h.drop 2)
  · exact Command.isWhole_splitArgs (h.drop 3)

/-- So is each argument that is looked at, with the white space around it taken away. -/
theorem Argument.isWhole_get? {args : List Text} (h : ∀ t ∈ args, t.IsWhole) {i : Nat} {t : Text}
    (ht : Argument.get? args i = some t) : t.IsWhole := by
  unfold Argument.get? at ht
  have htrim := (Option.filter_eq_some_iff.1 ht).1
  obtain ⟨arg, harg, rfl⟩ := Option.map_eq_some_iff.1 htrim
  exact (h arg (List.mem_of_getElem? harg)).trim

end LabelPress
