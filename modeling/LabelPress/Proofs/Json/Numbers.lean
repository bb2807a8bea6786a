import LabelPress.Json.Printer
import LabelPress.Json.Reader

/-!
# Numbers in JSON

The numeral of a number ends by itself at the end of a text, and inside a text where one of the
`delimiters` stands. So a number that is read back on its own is read back wherever it is written
(`ReadsBack.readValue_append`).
-/

namespace LabelPress.Json

open Text (isAsciiDigit)

/-- The characters that can stand behind a value. -/
def delimiters : List Char := [' ', '\t', '\n', '\r', ',', ']', '\x7d']

/-- A text that can stand behind a value. -/
def Ends (rest : List Char) : Prop :=
  ∀ c ∈ rest.head?, c ∈ delimiters

theorem Ends.nil : Ends [] := by
  simp [Ends]

theorem Ends.cons {c : Char} (h : c ∈ delimiters) (cs : List Char) : Ends (c :: cs) := by
  simpa [Ends] using h

variable {rest : List Char}

/-- Characters that pass are looked for in front of what no delimiter passes. -/
theorem takeWhile_append {p : Char → Bool} (hp : ∀ c ∈ delimiters, p c = false)
    (hrest : Ends rest) (cs : List Char) : (cs ++ rest).takeWhile p = cs.takeWhile p := by
  induction cs with
  | nil =>
    cases rest with
    | nil => rfl
    | cons c rest => exact List.takeWhile_cons_of_neg (by simp [hp c (hrest c rfl)])
  | cons c cs ih => rw [List.cons_append, List.takeWhile_cons, List.takeWhile_cons, ih]

/-- A run of characters among which no delimiter is stops where it did without what follows. -/
theorem dropWhile_append {p : Char → Bool} (hp : ∀ c ∈ delimiters, p c = false)
    (hrest : Ends rest) (cs : List Char) : (cs ++ rest).dropWhile p = cs.dropWhile p ++ rest := by
  induction cs with
  | nil =>
    cases rest with
    | nil => rfl
    | cons c rest => exact List.dropWhile_cons_of_neg (by simp [hp c (hrest c rfl)])
  | cons c cs ih =>
    rw [List.cons_append, List.dropWhile_cons, List.dropWhile_cons, ih]
    split <;> rfl

theorem eq_false_of_any {p : Char → Bool} {cs : List Char} (h : cs.any p = false) :
    ∀ c ∈ cs, p c = false := by
  simpa using h

theorem digit_delimiters : ∀ c ∈ delimiters, isAsciiDigit c = false := eq_false_of_any (by decide)

/-! ## The parts of a numeral -/

/-- A whole part that does not start with a zero is the run of digits. -/
theorem wholePart_eq {cs : List Char} (h : cs.head? ≠ some '0') :
    wholePart cs = (cs.takeWhile isAsciiDigit, cs.dropWhile isAsciiDigit) := by
  unfold wholePart
  split
  · exact absurd rfl h
  · rfl

/-- The whole part of a number does not depend on what follows the number. -/
theorem wholePart_append (hrest : Ends rest) (cs : List Char) :
    wholePart (cs ++ rest) = ((wholePart cs).1, (wholePart cs).2 ++ rest) := by
  by_cases hzero : cs.head? = some '0'
  · obtain ⟨tail, rfl⟩ := List.head?_eq_some_iff.1 hzero
    rfl
  · have hboth : (cs ++ rest).head? ≠ some '0' := by
      cases cs with
      | nil =>
        intro h
        exact absurd (hrest '0' h) (by decide)
      | cons c cs => exact hzero
    rw [wholePart_eq hboth, wholePart_eq hzero, takeWhile_append digit_delimiters hrest,
      dropWhile_append digit_delimiters hrest]

/-- Without a point there are no digits behind it. -/
theorem fractionPart_eq {cs : List Char} (h : cs.head? ≠ some '.') : fractionPart cs = ([], cs) := by
  unfold fractionPart
  split
  · exact absurd rfl h
  · rfl

/-- The digits behind the point do not depend on what follows the number. -/
theorem fractionPart_append (hrest : Ends rest) (cs : List Char) :
    fractionPart (cs ++ rest) = ((fractionPart cs).1, (fractionPart cs).2 ++ rest) := by
  by_cases hpoint : cs.head? = some '.'
  · obtain ⟨tail, rfl⟩ := List.head?_eq_some_iff.1 hpoint
    simp only [List.cons_append, fractionPart, takeWhile_append digit_delimiters hrest,
      dropWhile_append digit_delimiters hrest]
    split <;> rfl
  · have hboth : (cs ++ rest).head? ≠ some '.' := by
      cases cs with
      | nil =>
        intro h
        exact absurd (hrest '.' h) (by decide)
      | cons c cs => exact hpoint
    rw [fractionPart_eq hboth, fractionPart_eq hpoint]

/-- Nor does the sign of the exponent. -/
theorem splitSign_append (hrest : Ends rest) (cs : List Char) :
    Decimal.splitSign (cs ++ rest) =
      ((Decimal.splitSign cs).1, (Decimal.splitSign cs).2 ++ rest) := by
  -- a sign is looked for in the first character, which may be the one behind the number
  cases cs with
  | nil =>
    cases rest with
    | nil => rfl
    | cons c rest =>
      have hminus : c ≠ '-' := ne_of_mem_of_not_mem (hrest c rfl) (by decide)
      have hplus : c ≠ '+' := ne_of_mem_of_not_mem (hrest c rfl) (by decide)
      simp [Decimal.splitSign, hminus, hplus]
  | cons c cs =>
    by_cases hminus : c = '-'
    · subst hminus
      rfl
    · by_cases hplus : c = '+'
      · subst hplus
        rfl
      · simp [Decimal.splitSign, hminus, hplus]

/-- Nor do the digits of the exponent. -/
theorem exponentPart_append (hrest : Ends rest) (cs : List Char) :
    exponentPart (cs ++ rest) = ((exponentPart cs).1, (exponentPart cs).2 ++ rest) := by
  cases cs with
  | nil =>
    cases rest with
    | nil => rfl
    | cons c rest =>
      have hmarks : ∀ c ∈ delimiters, (c == 'e' || c == 'E') = false :=
        eq_false_of_any (by decide)
      simp [exponentPart, hmarks c (hrest c rfl)]
  | cons c cs =>
    simp only [List.cons_append, exponentPart, splitSign_append hrest,
      takeWhile_append digit_delimiters hrest, dropWhile_append digit_delimiters hrest]
    split
    · split <;> rfl
    · rfl

/-- A numeral reads the same in front of anything that ends it, and leaves that to be read. -/
theorem readNumeral_append (hrest : Ends rest) (negative : Bool) (cs : List Char) :
    readNumeral negative (cs ++ rest) =
      (fun r => (r.1, r.2 ++ rest)) <$> readNumeral negative cs := by
  simp only [readNumeral, wholePart_append hrest, fractionPart_append hrest,
    exponentPart_append hrest]
  split
  · rfl
  split
  · split <;> rfl
  · rfl

/-! ## What is left of a text -/

/-- The reader only moves forward. -/
theorem suffix_wholePart (cs : List Char) : (wholePart cs).2 <:+ cs := by
  unfold wholePart
  split
  · exact List.suffix_cons _ _
  · exact List.dropWhile_suffix _

theorem suffix_fractionPart (cs : List Char) : (fractionPart cs).2 <:+ cs := by
  unfold fractionPart
  split
  · simp only
    split
    · exact List.suffix_refl _
    · exact (List.dropWhile_suffix _).trans (List.suffix_cons _ _)
  · exact List.suffix_refl _

theorem suffix_splitSign (cs : List Char) : (Decimal.splitSign cs).2 <:+ cs := by
  unfold Decimal.splitSign
  split
  · exact List.suffix_cons _ _
  · exact List.suffix_cons _ _
  · exact List.suffix_refl _

theorem suffix_exponentPart (cs : List Char) : (exponentPart cs).2 <:+ cs := by
  unfold exponentPart
  split
  · next c tail =>
    simp only
    split
    · split
      · exact List.suffix_refl _
      · exact ((List.dropWhile_suffix _).trans (suffix_splitSign tail)).trans (List.suffix_cons _ _)
    · exact List.suffix_refl _
  · exact List.suffix_refl _

/-- A numeral begins with a digit, and leaves a part of the text. -/
theorem readNumeral_eq_ok {negative : Bool} {cs out : List Char} {x : Json}
    (h : readNumeral negative cs = .ok (x, out)) :
    (∃ d tail, cs = d :: tail ∧ isAsciiDigit d = true) ∧ out <:+ cs := by
  -- what is left is the same whether the numeral turns out whole or not
  have hout : out = (exponentPart (fractionPart (wholePart cs).2).2).2 := by
    unfold readNumeral at h
    simp only at h
    split at h
    · cases h
    split at h
    · split at h
      · cases h
      · exact (Prod.mk.inj (Except.ok.inj h)).2.symm
    · exact (Prod.mk.inj (Except.ok.inj h)).2.symm
  have hdigit : (wholePart cs).1 ≠ [] := by
    intro hempty
    unfold readNumeral at h
    simp only [hempty, List.isEmpty_nil, if_true] at h
    cases h
  refine ⟨?_, ?_⟩
  · by_cases hzero : cs.head? = some '0'
    · obtain ⟨tail, rfl⟩ := List.head?_eq_some_iff.1 hzero
      exact ⟨'0', tail, rfl, rfl⟩
    · rw [wholePart_eq hzero] at hdigit
      obtain ⟨d, ds, hds⟩ := List.exists_cons_of_ne_nil hdigit
      cases cs with
      | nil => cases hds
      | cons c tail =>
        by_cases hc : isAsciiDigit c = true
        · exact ⟨c, tail, rfl, hc⟩
        · rw [List.takeWhile_cons_of_neg hc] at hds
          cases hds
  · rw [hout]
    exact ((suffix_exponentPart _).trans (suffix_fractionPart _)).trans (suffix_wholePart cs)

/-! ## Numbers as scalars -/

theorem digit_ne {d c : Char} (hd : isAsciiDigit d = true) (hc : isAsciiDigit c = false) : d ≠ c := by
  rintro rfl
  rw [hc] at hd
  cases hd

/-- A value that starts with a digit is a number. -/
theorem readScalar_digit {d : Char} (hd : isAsciiDigit d = true) (cs : List Char) :
    readScalar (d :: cs) = readNumeral false (d :: cs) := by
  rw [readScalar]
  -- no word begins with a digit
  all_goals
    intro _ h
    exact digit_ne hd (by decide) (List.cons.inj h).1

/-- A value that starts with a minus sign and a digit is a number below zero. -/
theorem readScalar_minus {d : Char} (hd : isAsciiDigit d = true) (cs : List Char) :
    readScalar ('-' :: d :: cs) = readNumeral true (d :: cs) := by
  rw [readScalar]
  intro _ h
  exact digit_ne hd (by decide) (List.cons.inj h).1

/-- The ways in which a number is read. -/
inductive ReadsNumber (n : Number) (cs out : List Char) : Prop
  | word (c : Char) (letters : List Char) (hcs : cs = c :: letters ++ out)
      (hc : c ∈ ['N', 'I', '-'])
      (h : ∀ rest, readScalar (c :: letters ++ rest) = .ok (.number n, rest))
  | numeral (h : readNumeral false cs = .ok (.number n, out))
  | negative (tail : List Char) (hcs : cs = '-' :: tail)
      (h : readNumeral true tail = .ok (.number n, out))

/-- A number was read as a numeral, with or without a sign, or as one of the three words. -/
theorem readsNumber_of_readScalar {cs out : List Char} {n : Number}
    (h : readScalar cs = .ok (.number n, out)) : ReadsNumber n cs out := by
  unfold readScalar at h
  split at h
  · cases h
  · cases h
  · cases h
  · cases h
    exact .word 'N' ['a', 'N'] rfl (by decide) fun _ => rfl
  · cases h
    exact .word 'I' ['n', 'f', 'i', 'n', 'i', 't', 'y'] rfl (by decide) fun _ => rfl
  · cases h
    exact .word '-' ['I', 'n', 'f', 'i', 'n', 'i', 't', 'y'] rfl (by decide) fun _ => rfl
  · exact .negative _ rfl h
  · exact .numeral h

/-- A number that takes up all of a text is read in front of a delimiter as well. -/
theorem readScalar_append {cs : List Char} {n : Number} (h : readScalar cs = .ok (.number n, []))
    (hrest : Ends rest) : readScalar (cs ++ rest) = .ok (.number n, rest) := by
  -- a word is read letter by letter, and a numeral up to what ends it
  cases readsNumber_of_readScalar h with
  | word c letters hcs _ hword =>
    rw [hcs, List.append_nil]
    exact hword rest
  | numeral hnumeral =>
    obtain ⟨⟨d, tail, rfl, hd⟩, -⟩ := readNumeral_eq_ok hnumeral
    rw [List.cons_append, readScalar_digit hd, ← List.cons_append, readNumeral_append hrest,
      hnumeral]
    rfl
  | negative tail hcs hnumeral =>
    obtain ⟨⟨d, tail, rfl, hd⟩, -⟩ := readNumeral_eq_ok hnumeral
    rw [hcs, List.cons_append, List.cons_append, readScalar_minus hd, ← List.cons_append,
      readNumeral_append hrest, hnumeral]
    rfl

/-- What is left behind a number is an end of what stood there. -/
theorem suffix_readScalar {cs out : List Char} {n : Number}
    (h : readScalar cs = .ok (.number n, out)) : out <:+ cs := by
  cases readsNumber_of_readScalar h with
  | word c letters hcs => exact ⟨_, hcs.symm⟩
  | numeral hnumeral => exact (readNumeral_eq_ok hnumeral).2
  | negative tail hcs hnumeral =>
    rw [hcs]
    exact (readNumeral_eq_ok hnumeral).2.trans (List.suffix_cons _ _)

/-- A number begins with a digit, a sign or a letter. -/
theorem head_readScalar {cs out : List Char} {n : Number}
    (h : readScalar cs = .ok (.number n, out)) :
    ∃ c tail, cs = c :: tail ∧ (isAsciiDigit c = true ∨ c ∈ ['N', 'I', '-']) := by
  cases readsNumber_of_readScalar h with
  | word c letters hcs hc => exact ⟨c, letters ++ out, hcs, .inr hc⟩
  | numeral hnumeral =>
    obtain ⟨⟨d, tail, hcs, hd⟩, -⟩ := readNumeral_eq_ok hnumeral
    exact ⟨d, tail, hcs, .inl hd⟩
  | negative tail hcs => exact ⟨'-', tail, hcs, .inr (by decide)⟩

/-! ## Numbers as they are written -/

/-- No white space stands in a text. -/
def Tight (cs : List Char) : Prop :=
  ∀ c ∈ cs, isSpace c = false

instance (cs : List Char) : Decidable (Tight cs) :=
  List.decidableBAll (isSpace · = false) cs

theorem Tight.append {cs ds : List Char} (hcs : Tight cs) (hds : Tight ds) : Tight (cs ++ ds) :=
  List.forall_mem_append.2 ⟨hcs, hds⟩

theorem Tight.cons {c : Char} {cs : List Char} (hc : isSpace c = false) (hcs : Tight cs) :
    Tight (c :: cs) :=
  List.forall_mem_cons.2 ⟨hc, hcs⟩

theorem Tight.of_subset {cs ds : List Char} (hds : Tight ds) (h : cs ⊆ ds) : Tight cs :=
  fun c hc => hds c (h hc)

/-- A character repeated is tight if it is. -/
theorem Tight.replicate {c : Char} (hc : isSpace c = false) (n : Nat) :
    Tight (List.replicate n c) := by
  intro d hd
  rw [(List.mem_replicate.1 hd).2]
  exact hc

/-- A numeral has no space in it. -/
theorem tight_numeral (n : Nat) : Tight (Decimal.numeral n) := by
  intro c hc
  have hdigit := Decimal.isAsciiDigit_of_mem_numeral hc
  rw [← Bool.not_eq_true]
  intro hspace
  simp only [isSpace, Bool.or_eq_true, beq_iff_eq] at hspace
  rcases hspace with ((rfl | rfl) | rfl) | rfl <;> exact absurd hdigit (by decide)

theorem tight_padded (width n : Nat) : Tight (Decimal.padded width n) :=
  (Tight.replicate (by decide) _).append (tight_numeral n)

/-- A numeral without its final zeros has no space in it. -/
theorem tight_significant (n : Nat) : Tight (Decimal.significant n) := by
  apply (tight_numeral n).of_subset
  intro c hc
  have hmem := (List.dropWhile_sublist _).mem (List.mem_reverse.1 hc)
  exact List.mem_reverse.1 hmem

theorem tight_signed {cs : List Char} (h : Tight cs) (negative : Bool) :
    Tight (Decimal.signed negative cs) := by
  unfold Decimal.signed
  split
  · exact h.cons (by decide)
  · exact h

theorem tight_exponentMark (e : Int) : Tight (Decimal.exponentMark e) := by
  unfold Decimal.exponentMark
  refine .cons (by decide) (.cons ?_ (tight_padded 2 _))
  split <;> decide

/-- However the point is placed, no space is written. -/
theorem tight_render (x : Decimal.Scientific) : Tight x.render := by
  have hdigits := tight_significant x.digits
  have htake (n : Nat) : Tight ((Decimal.significant x.digits).take n) :=
    hdigits.of_subset (List.take_subset n _)
  have hdrop (n : Nat) : Tight ((Decimal.significant x.digits).drop n) :=
    hdigits.of_subset (List.drop_subset n _)
  have hzeros (n : Nat) : Tight (List.replicate n '0') := .replicate (by decide) n
  -- the point stands before, within or behind the digits, or there is an exponent
  unfold Decimal.Scientific.render
  simp only
  split
  · split
    · exact (Tight.cons (by decide) (.cons (by decide) (hzeros _))).append hdigits
    · refine ((htake _).append (hzeros _)).append (.cons (by decide) ?_)
      split
      · exact hzeros 1
      · exact hdrop _
  · refine ((htake 1).append ?_).append (tight_exponentMark _)
    split
    · exact fun _ h => absurd h (by simp)
    · exact .cons (by decide) (hdrop 1)

/-- A number has no space in it, with the three words that stand for what has no numeral. -/
theorem tight_chars (n : Number) : Tight (n.chars words) := by
  cases n with
  | int n =>
    cases n with
    | ofNat n => exact tight_numeral n
    | negSucc n => exact .cons (by decide) (tight_numeral (n + 1))
  | float x =>
    unfold Number.chars Decimal.shortest
    simp only
    split
    · decide
    · exact tight_signed (by decide) _
    · exact tight_signed (by decide) _
    · exact tight_signed (tight_render _) _

/-! ## Numbers that read back -/

/-- Writing a number on its own and reading it is no change. -/
def ReadsBack (n : Number) : Prop :=
  parse (render .line (.number n)) = .ok (.number n)

deriving instance DecidableEq for Number

/-- Whether a reading gives this number. -/
def givesNumber (n : Number) : Except ReadFault Json → Bool
  | .ok (.number m) => decide (m = n)
  | _ => false

/-- The test for one number decides whether the reading gave it. -/
theorem givesNumber_iff {n : Number} {x : Except ReadFault Json} :
    givesNumber n x = true ↔ x = .ok (.number n) := by
  constructor
  · intro h
    unfold givesNumber at h
    split at h
    · rw [of_decide_eq_true h]
    · cases h
  · rintro rfl
    exact decide_eq_true rfl

instance (n : Number) : Decidable (ReadsBack n) :=
  decidable_of_iff _ givesNumber_iff

/-- A value that is read as a number was read as a scalar, for every other value starts with a mark
of its own. -/
theorem readValue_eq_number {fuel depth : Nat} {cs out : List Char} {n : Number}
    (h : readValue fuel depth cs = .ok (.number n, out)) :
    readScalar cs = .ok (.number n, out) := by
  cases fuel with
  | zero => cases h
  | succ fuel =>
    -- a string, a list and an object are no numbers
    unfold readValue at h
    simp only [bind, Except.bind] at h
    split at h
    · split at h <;> cases h
    · cases h
    · cases h
    · split at h
      · cases h
      · split at h <;> cases h
    · split at h
      · cases h
      · split at h <;> cases h
    · exact h

theorem Tight.skipSpace {cs : List Char} (h : Tight cs) : skipSpace cs = cs := by
  cases cs with
  | nil => rfl
  | cons c cs => exact List.dropWhile_cons_of_neg (by simp [h c List.mem_cons_self])

/-- What is read on its own is read with nothing left. -/
theorem ReadsBack.readScalar_chars {n : Number} (h : ReadsBack n) :
    readScalar (n.chars words) = .ok (.number n, []) := by
  have htight := tight_chars n
  have hchars : (render .line (.number n)).toList = n.chars words := String.toList_ofList
  unfold ReadsBack parse at h
  simp only [bind, Except.bind, hchars, htight.skipSpace] at h
  split at h
  · cases h
  · next r hr =>
    obtain ⟨x, out⟩ := r
    simp only at h
    split at h
    · next hempty =>
      cases h
      have hread := readValue_eq_number hr
      -- what is left would be white space, of which there is none
      have hout : Tight out := htight.of_subset (suffix_readScalar hread).subset
      rw [hout.skipSpace, List.isEmpty_iff] at hempty
      rw [hread, hempty]
    · cases h

/-- What is neither a string nor a list nor an object is a scalar. -/
theorem readValue_scalar {c : Char} (hquote : c ≠ '"') (hlist : c ≠ '[') (hobject : c ≠ '\x7b')
    (fuel depth : Nat) (cs : List Char) :
    readValue (fuel + 1) depth (c :: cs) = readScalar (c :: cs) := by
  rw [readValue]
  · intro _ h
    exact hquote (List.cons.inj h).1
  · intro _ h _
    exact hlist (List.cons.inj h).1
  · intro _ h _
    exact hobject (List.cons.inj h).1
  · intro _ _ h _
    exact hlist (List.cons.inj h).1
  · intro _ _ h _
    exact hobject (List.cons.inj h).1

/-- A number that reads back begins with none of the characters that begin or end other values. -/
theorem ReadsBack.head {n : Number} (h : ReadsBack n) :
    ∃ c tail, n.chars words = c :: tail ∧ isSpace c = false ∧
      c ∉ ['"', '[', ']', '\x7b', '\x7d'] := by
  obtain ⟨c, tail, hcs, hc⟩ := head_readScalar h.readScalar_chars
  refine ⟨c, tail, hcs, tight_chars n c (by simp [hcs]), ?_⟩
  rcases hc with hdigit | hmem
  · have hno : ∀ d ∈ ['"', '[', ']', '\x7b', '\x7d'], isAsciiDigit d = false :=
      eq_false_of_any (by decide)
    intro h
    rw [hno c h] at hdigit
    cases hdigit
  · simp only [List.mem_cons, List.not_mem_nil, or_false] at hmem
    rcases hmem with rfl | rfl | rfl <;> decide

/-- A number that reads back is read in front of every delimiter. -/
theorem ReadsBack.readValue_append {n : Number} (h : ReadsBack n) (hrest : Ends rest)
    (fuel depth : Nat) :
    readValue (fuel + 1) depth (n.chars words ++ rest) = .ok (.number n, rest) := by
  have hread := readScalar_append h.readScalar_chars hrest
  obtain ⟨c, tail, hcs, -, hc⟩ := h.head
  simp only [List.mem_cons, List.not_mem_nil, or_false, not_or] at hc
  rw [hcs, List.cons_append] at hread ⊢
  rw [readValue_scalar hc.1 hc.2.1 hc.2.2.2.1, hread]

end LabelPress.Json
