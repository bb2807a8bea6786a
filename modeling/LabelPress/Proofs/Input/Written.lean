import LabelPress.Proofs.Input.Kept
import LabelPress.Proofs.Text.Whole

/-!
# Commands written and read back

A canonical command has the shape that reading gives a command whose name is spelled in ASCII. Such
commands can be written one after another and are read back as they were: every command begins at
its mark, the reader drops nothing of it, and its name and its arguments are found again.

The argument has two halves, which meet in `Command.IsCanonical`:

* `Command.parse_render`: a canonical command is read from what is written for it;
* `Command.isCanonical_parse`: what is read from what is kept of a piece is canonical.
-/

namespace LabelPress

/-! ## Capitals of names -/

namespace Script

/-- Whether a name can hold a character: ASCII, but no small letter, no mark and no white space. -/
def isCodeChar (c : Char) : Bool :=
  c.toNat < 0x80 && !('a' ≤ c && c ≤ 'z') && !isMark c && !isSpace c

variable {c d : Char}

theorem isMark_of_isCodeChar (h : isCodeChar c = true) : isMark c = false := by
  simp only [isCodeChar, Bool.and_eq_true, Bool.not_eq_true'] at h
  exact h.1.2

theorem isSpace_of_isCodeChar (h : isCodeChar c = true) : isSpace c = false := by
  simp only [isCodeChar, Bool.and_eq_true, Bool.not_eq_true'] at h
  exact h.2

/-- The characters of codes are capitals already. -/
theorem upperChar_of_isCodeChar (h : isCodeChar c = true) : Text.upperChar c = [c] := by
  simp only [isCodeChar, Bool.and_eq_true, decide_eq_true_eq, Bool.not_eq_true',
    Bool.and_eq_false_iff, decide_eq_false_iff_not] at h
  obtain ⟨⟨⟨hascii, hsmall⟩, -⟩, -⟩ := h
  unfold Text.upperChar
  rw [if_pos hascii, if_neg (by tauto)]

/-- An ASCII character that is kept becomes a character of a name. -/
theorem exists_capital (hascii : c.toNat < 0x80) (hmark : isMark c = false)
    (hspace : isSpace c = false) :
    ∃ d, Text.upperChar c = [d] ∧ isCodeChar d = true := by
  obtain ⟨d, hd⟩ := List.length_eq_one_iff.1 (Text.length_upperChar hascii)
  have hcode : isMark c = false → isSpace c = false →
      (Text.upperChar c).all isCodeChar = true := of_ascii hascii (by decide)
  exact ⟨d, hd, List.all_eq_true.1 (hcode hmark hspace) d (by simp [hd])⟩

/-- Field data begin with two letters whose capitals are `F` and `D`. -/
theorem capitals_of_isFieldData (h : isFieldData c d = true) :
    Text.upperChar c = ['F'] ∧ Text.upperChar d = ['D'] := by
  simp only [isFieldData, Bool.and_eq_true, Bool.or_eq_true, beq_iff_eq] at h
  obtain ⟨hF, hD⟩ := h
  constructor
  · rcases hF with rfl | rfl <;> decide
  · rcases hD with rfl | rfl <;> decide

end Script

namespace Text

/-- Only its own number gives `@`, for a number of no character gives the first one. -/
theorem ofNat_ne_at {n : Nat} (h : n ≠ 64) : Char.ofNat n ≠ '@' := by
  intro hat
  by_cases hvalid : n.isValidChar
  · have hcode := toNat_ofNat hvalid
    rw [hat] at hcode
    exact h hcode.symm
  · unfold Char.ofNat at hat
    rw [dif_neg hvalid] at hat
    exact absurd hat (by decide)

/-- No other character has `@` for its capital: none of the texts in the table is `@` alone, and the
runs lead beyond it. -/
theorem eq_at_of_upperChar {c : Char} (h : upperChar c = ['@']) : c = '@' := by
  have htexts : ∀ entry ∈ capitalTexts, entry.2.map Char.ofNat ≠ ['@'] := by decide +kernel
  have hruns : ∀ run ∈ capitalRuns, 64 < (run.1 : Int) + run.2.2.2 := by
    decide +kernel
  by_cases hc : c.toNat < 128
  · have hlow : upperChar c = ['@'] → c = '@' := Script.of_ascii hc (by decide)
    exact hlow h
  · unfold upperChar at h
    rw [if_neg hc] at h
    split at h
    · next hfind => exact absurd h (htexts _ (List.mem_of_find?_eq_some hfind))
    · split at h
      · next n hrun =>
        -- the capitals that the runs give lie behind `@`
        obtain ⟨run, hmem, hsome⟩ := List.exists_of_findSome?_eq_some hrun
        have hdistance := hruns run hmem
        obtain ⟨first, last, step, distance⟩ := run
        simp only [Option.ite_none_right_eq_some, Option.some.injEq, Bool.and_eq_true,
          decide_eq_true_eq] at hsome hdistance
        obtain ⟨⟨⟨hfirst, -⟩, -⟩, rfl⟩ := hsome
        exact absurd (List.cons.inj h).1 (ofNat_ne_at (by omega))
      · exact (List.cons.inj h).1

theorem eq_at_of_upperPoint {p : CodePoint} (h : upperPoint p = [.char '@']) :
    p = .char '@' := by
  cases p with
  | char c =>
    have hmap : ofChars (upperChar c) = ofChars ['@'] := congrArg Text.mk h
    rw [eq_at_of_upperChar (ofChars_injective hmap)]
  | half k => simp [upperPoint] at h

end Text

/-! ## Arguments with commas between them -/

namespace Command

/-- Separating what has been joined gives the arguments back, unless there is nothing but one empty
argument. -/
theorem splitArgs_joinArgs {args : List Text} (hne : args ≠ [.empty])
    (hcomma : ∀ t ∈ args, ∀ p ∈ t.points, p ≠ .char ',') : splitArgs (joinArgs args) = args := by
  cases args with
  | nil => rfl
  | cons t ts =>
    have hpoints : (joinArgs (t :: ts)).points.splitOn (.char ',') = (t :: ts).map (·.points) := by
      refine List.splitOn_intercalate _ ?_ (by simp)
      intro points hmem hp
      obtain ⟨u, hu, rfl⟩ := List.mem_map.1 hmem
      exact hcomma u hu _ hp rfl
    have hsplit : (joinArgs (t :: ts)).splitOn ',' = t :: ts := by
      unfold Text.splitOn
      rw [hpoints, List.map_map]
      exact List.map_id _
    unfold splitArgs
    split
    · next hempty =>
      -- nothing at all would be one empty argument
      have hjoin : joinArgs (t :: ts) = .empty := congrArg Text.mk (List.isEmpty_iff.1 hempty)
      rw [hjoin] at hsplit
      exact absurd hsplit.symm hne
    · exact hsplit

/-- Arguments that are joined again are the text they were split from. -/
theorem joinArgs_splitArgs (t : Text) : joinArgs (splitArgs t) = t := by
  unfold splitArgs
  split
  · next hempty => exact (congrArg Text.mk (List.isEmpty_iff.1 hempty)).symm
  · unfold joinArgs Text.intercalate Text.splitOn
    rw [List.map_map]
    have hid : (Text.points ∘ fun ps => (⟨ps⟩ : Text)) = id := rfl
    rw [hid, List.map_id]
    exact congrArg Text.mk (List.intercalate_splitOn _)

/-- A text is never split into a single empty argument: an empty text has none. -/
theorem splitArgs_ne (t : Text) : splitArgs t ≠ [.empty] := by
  intro h
  have hjoin := joinArgs_splitArgs t
  rw [h] at hjoin
  subst hjoin
  cases h

/-- An argument holds what the text held, but no comma. -/
theorem of_mem_splitArgs {t u : Text} (h : u ∈ splitArgs t) :
    ∀ p ∈ u.points, p ∈ t.points ∧ p ≠ .char ',' := by
  unfold splitArgs at h
  split at h
  · cases h
  · exact Text.of_mem_splitOn h

/-- The first argument begins as the whole text does. -/
theorem head?_joinArgs {u : Text} {us : List Text} {p : CodePoint} (h : u.points.head? = some p) :
    (joinArgs (u :: us)).points.head? = some p := by
  obtain ⟨rest, hrest⟩ := List.head?_eq_some_iff.1 h
  cases us with
  | nil => simp [joinArgs, Text.intercalate, hrest]
  | cons v vs => simp [joinArgs, Text.intercalate, List.intercalate_cons_cons, hrest]

/-- A text of arguments begins as the first of them does, or with a comma. -/
theorem head?_of_joinArgs {args : List Text} {p : CodePoint} (hp : p ≠ .char ',')
    (h : (joinArgs args).points.head? = some p) : ∃ t ∈ args.head?, t.points.head? = some p := by
  cases args with
  | nil => cases h
  | cons u us =>
    refine ⟨u, rfl, ?_⟩
    cases us with
    | nil =>
      have hjoin : (joinArgs [u]).points = u.points := by simp [joinArgs, Text.intercalate]
      rwa [hjoin] at h
    | cons v vs =>
      rw [joinArgs, Text.intercalate_cons_cons] at h
      -- if the first argument is empty, the text begins with the comma behind it
      cases hu : u.points with
      | nil =>
        have hcomma : (u ++ "," ++ Text.intercalate "," (v :: vs)).points.head? =
            some (.char ',') := by
          simp only [HAppend.hAppend, Append.append, hu]
          rfl
        rw [hcomma] at h
        exact absurd (Option.some.inj h).symm hp
      | cons q qs =>
        have hfirst : (u ++ "," ++ Text.intercalate "," (v :: vs)).points.head? = some q := by
          simp only [HAppend.hAppend, Append.append, hu]
          rfl
        rw [hfirst] at h
        exact h

/-- What is joined from arguments holds what they hold, and commas. -/
theorem of_mem_joinArgs {args : List Text} {p : CodePoint} (h : p ∈ (joinArgs args).points) :
    p = .char ',' ∨ ∃ t ∈ args, p ∈ t.points := by
  -- induction on the arguments, whose first one stands in front of a comma
  induction args with
  | nil => cases h
  | cons u us ih =>
    cases us with
    | nil =>
      have hjoin : (joinArgs [u]).points = u.points := by simp [joinArgs, Text.intercalate]
      rw [hjoin] at h
      exact .inr ⟨u, List.mem_cons_self, h⟩
    | cons v vs =>
      rw [joinArgs, Text.intercalate_cons_cons] at h
      rcases List.mem_append.1 h with h | h
      · rcases List.mem_append.1 h with h | h
        · exact .inr ⟨u, List.mem_cons_self, h⟩
        · exact .inl (List.mem_singleton.1 h)
      · rcases ih h with hcomma | ⟨t, ht, hp⟩
        · exact .inl hcomma
        · exact .inr ⟨t, List.mem_cons_of_mem u ht, hp⟩

/-! ## Canonical commands -/

/-- The codes of names, each with the arguments that go with it. -/
inductive HasShape : List Char → List Text → Prop
  | pair {c d : Char} (hc : c ≠ 'A') (args : List Text) : HasShape [c, d] args
  | namedFont (args : List Text) : HasShape ['A', '@'] args
  /-- The second character of the font command is the first of its arguments. -/
  | font {args : List Text} (hat : ∀ t ∈ args.head?, t.points.head? ≠ some (.char '@')) :
    HasShape ['A'] args
  | none : HasShape [] []
  | single {c : Char} (hc : c ≠ 'A') : HasShape [c] []

/-- A command as it is read. -/
structure IsCanonical (c : Command) : Prop where
  mark : ∃ m, c.mark = some (.char m) ∧ Script.isMark m = true
  name : ∃ code, c.name = .ofChars code ∧ (∀ x ∈ code, Script.isCodeChar x = true) ∧
    HasShape code c.args
  args_ne : c.args ≠ [.empty]
  /-- Neither a comma nor a mark stands in an argument. -/
  separate : ∀ t ∈ c.args, ∀ p ∈ t.points, p ≠ .char ',' ∧ p.meets Script.isMark = false
  /-- White space stands in field data only. -/
  tight : c.name ≠ "FD" → ∀ t ∈ c.args, ∀ p ∈ t.points, p.meets Script.isSpace = false

/-- The text of commands, one after another. -/
def written (cs : List Command) : Text :=
  ⟨cs.flatMap fun c => c.render.points⟩

theorem written_cons (c : Command) (cs : List Command) :
    written (c :: cs) = c.render ++ written cs := rfl

/-- The code of a token, as far as there is one, is spelled in ASCII. -/
def HasAsciiCode (token : Text) : Prop :=
  ∀ p ∈ ((token.drop 1).take 2).points, p.meets (·.toNat < 0x80) = true

/-- The two characters behind the mark are ASCII if the code is. -/
theorem HasAsciiCode.toNat_lt {m : Char} {kept : List Char}
    (h : HasAsciiCode (.ofChars (m :: kept))) : ∀ x ∈ kept.take 2, x.toNat < 0x80 := by
  intro x hx
  have htake : (((Text.ofChars (m :: kept)).drop 1).take 2).points =
      (kept.take 2).map CodePoint.char := (List.map_take ..).symm
  have hmem : CodePoint.char x ∈ (((Text.ofChars (m :: kept)).drop 1).take 2).points :=
    htake ▸ List.mem_map_of_mem hx
  simpa [CodePoint.meets] using h _ hmem

/-! ### What is written is read back -/

/-- A code that begins with an `A` is a font's, and the next character is its first argument. -/
theorem parse_of_font {m : CodePoint} {rest : List CodePoint}
    (hfont : (Text.upper ⟨rest.take 2⟩).points.head? = some (.char 'A'))
    (hat : Text.upper ⟨rest.take 2⟩ ≠ "A@") :
    parse ⟨m :: rest⟩ = ⟨some m, "A", splitArgs ⟨rest.drop 1⟩⟩ :=
  if_pos ⟨hfont, hat⟩

/-- Any other code has two letters, and the arguments follow. -/
theorem parse_of_code {m : CodePoint} {rest : List CodePoint}
    (h : (Text.upper ⟨rest.take 2⟩).points.head? = some (.char 'A') →
      Text.upper ⟨rest.take 2⟩ = "A@") :
    parse ⟨m :: rest⟩ = ⟨some m, Text.upper ⟨rest.take 2⟩, splitArgs ⟨rest.drop 2⟩⟩ :=
  if_neg fun hfont => hfont.2 (h hfont.1)

/-- The code of a command is not changed by taking capitals. -/
theorem upper_code {code : List Char} (h : ∀ x ∈ code, Script.isCodeChar x = true) :
    Text.upper (.ofChars code) = .ofChars code := by
  induction code with
  | nil => rfl
  | cons c code ih =>
    have hc := Script.upperChar_of_isCodeChar (h c List.mem_cons_self)
    have hrest := congrArg Text.points (ih fun x hx => h x (List.mem_cons_of_mem c hx))
    simp only [Text.upper, Text.ofChars, List.map_cons, List.flatMap_cons, Text.upperPoint, hc,
      List.map_nil, List.singleton_append] at hrest ⊢
    rw [hrest]

/-- Reading what was written of a command in its canonical form gives the command back. -/
theorem parse_render {c : Command} (h : c.IsCanonical) : parse c.render = c := by
  obtain ⟨m, hm, -⟩ := h.mark
  obtain ⟨code, hname, hcode, hshape⟩ := h.name
  have hargs := splitArgs_joinArgs h.args_ne fun t ht p hp => (h.separate t ht p hp).1
  have hupper := upper_code hcode
  have hrender : c.render = ⟨.char m :: (code.map .char ++ (joinArgs c.args).points)⟩ := by
    unfold render
    rw [hm, hname]
    rfl
  obtain ⟨mark, name, args⟩ := c
  simp only at hm hname hshape hargs hrender
  subst hm hname
  rw [hrender]
  -- one case for each shape that the code of a command may have
  cases hshape with
  | @pair x y hx =>
    have htake : (([x, y].map CodePoint.char) ++ (joinArgs args).points).take 2 =
        [x, y].map .char := rfl
    rw [parse_of_code, htake]
    · exact congrArg₂ (Command.mk _) hupper hargs
    · rw [htake]
      intro hfont
      have hhead : (Text.upper (.ofChars [x, y])).points.head? = some (.char 'A') := hfont
      rw [hupper] at hhead
      cases hhead
      exact absurd rfl hx
  | namedFont =>
    have hnamed : Text.upper ⟨((['A', '@'].map CodePoint.char) ++
        (joinArgs args).points).take 2⟩ = "A@" := hupper
    rw [parse_of_code fun _ => hnamed]
    exact congrArg₂ (Command.mk _) hupper hargs
  | font hat =>
    rw [parse_of_font rfl]
    · exact congrArg (Command.mk _ _) hargs
    · -- nothing but `@` would make the name that of the other font command
      intro hname
      cases hpoints : (joinArgs args).points with
      | nil =>
        rw [hpoints] at hname
        cases hname
      | cons p ps =>
        rw [hpoints] at hname
        have htail : Text.upperPoint p ++ [] = [.char '@'] :=
          (List.cons.inj (congrArg Text.points hname)).2
        rw [List.append_nil] at htail
        have hp := Text.eq_at_of_upperPoint htail
        have hfirst : (joinArgs args).points.head? = some p := by
          rw [hpoints]
          rfl
        obtain ⟨t, ht, hhead⟩ := head?_of_joinArgs (by rw [hp]; decide) hfirst
        exact hat t ht (hp ▸ hhead)
  | none => rfl
  | @single x hx =>
    rw [parse_of_code]
    · exact congrArg₂ (Command.mk _) hupper rfl
    · intro hfont
      have hhead : (Text.upper (.ofChars [x])).points.head? = some (.char 'A') := hfont
      rw [hupper] at hhead
      cases hhead
      exact absurd rfl hx

/-! ### What is read is canonical -/

/-- A name with the arguments that stand behind it. -/
theorem isCanonical_mk {m : Char} {code data : List Char} (hm : Script.isMark m = true)
    (hcode : ∀ x ∈ code, Script.isCodeChar x = true)
    (hshape : HasShape code (splitArgs (.ofChars data)))
    (hmark : ∀ x ∈ data, Script.isMark x = false)
    (hspace : Text.ofChars code ≠ "FD" → ∀ x ∈ data, Script.isSpace x = false) :
    IsCanonical ⟨some (.char m), .ofChars code, splitArgs (.ofChars data)⟩ where
  mark := ⟨m, rfl, hm⟩
  name := ⟨code, rfl, hcode, hshape⟩
  args_ne := splitArgs_ne _
  separate := by
    intro t ht p hp
    obtain ⟨hmem, hne⟩ := of_mem_splitArgs ht p hp
    obtain ⟨x, hx, rfl⟩ := List.mem_map.1 hmem
    exact ⟨hne, hmark x hx⟩
  tight := by
    intro hname t ht p hp
    obtain ⟨x, hx, rfl⟩ := List.mem_map.1 (of_mem_splitArgs ht p hp).1
    exact hspace hname x hx

theorem splitArgs_nil : splitArgs (.ofChars []) = [] := rfl

/-- A token with at most one character behind its mark. -/
theorem isCanonical_parse_short {m : Char} {kept : List Char} (hm : Script.isMark m = true)
    (hmark : ∀ x ∈ kept, Script.isMark x = false) (htight : Script.IsTight kept)
    (hascii : ∀ x ∈ kept, x.toNat < 0x80) (hshort : kept.length < 2) :
    (parse (.ofChars (m :: kept))).IsCanonical := by
  match kept with
  | [] =>
    have hparse : parse (.ofChars [m]) = ⟨some (.char m), .ofChars [], splitArgs (.ofChars [])⟩ :=
      rfl
    rw [hparse]
    exact isCanonical_mk hm (by simp) .none (by simp) (by simp)
  | [c] =>
    have hc : c ∈ [c] := List.mem_singleton_self c
    obtain ⟨x, hx, hcode⟩ := Script.exists_capital (hascii c hc) (hmark c hc) htight
    have hupper : Text.upper ⟨[.char c]⟩ = .ofChars [x] := by
      simp [Text.upper, Text.upperPoint, hx, Text.ofChars]
    have hcodes : ∀ y ∈ [x], Script.isCodeChar y = true := by simpa using hcode
    -- an `A` alone is the code of a font without arguments
    by_cases hA : x = 'A'
    · subst hA
      have hparse : parse (.ofChars [m, c]) =
          ⟨some (.char m), .ofChars ['A'], splitArgs (.ofChars [])⟩ :=
        parse_of_font (congrArg (·.points.head?) hupper) (hupper ▸ by decide)
      rw [hparse]
      exact isCanonical_mk hm hcodes (.font (by simp [splitArgs_nil])) (by simp) (by simp)
    · have hparse : parse (.ofChars [m, c]) =
          ⟨some (.char m), .ofChars [x], splitArgs (.ofChars [])⟩ := by
        refine (parse_of_code fun hfont => ?_).trans (congrArg (Command.mk _ · _) hupper)
        have hhead := (congrArg (·.points.head?) hupper).symm.trans hfont
        cases hhead
        exact absurd rfl hA
      rw [hparse]
      exact isCanonical_mk hm hcodes (.single hA) (by simp) (by simp)
  | _ :: _ :: data =>
    rw [List.length_cons, List.length_cons] at hshort
    omega

/-- A token with two characters behind its mark, and what follows them. -/
theorem isCanonical_parse_long {m c d : Char} {data : List Char} (hm : Script.isMark m = true)
    (hmark : ∀ x ∈ c :: d :: data, Script.isMark x = false)
    (htight : Script.IsTight (c :: d :: data)) (hc : c.toNat < 0x80) (hd : d.toNat < 0x80) :
    (parse (.ofChars (m :: c :: d :: data))).IsCanonical := by
  obtain ⟨hcspace, hdspace, hdata⟩ := htight
  rw [List.forall_mem_cons, List.forall_mem_cons] at hmark
  obtain ⟨hcmark, hdmark, hdatamark⟩ := hmark
  obtain ⟨x, hx, hxcode⟩ := Script.exists_capital hc hcmark hcspace
  obtain ⟨y, hy, hycode⟩ := Script.exists_capital hd hdmark hdspace
  have hupper : Text.upper ⟨[.char c, .char d]⟩ = .ofChars [x, y] := by
    simp [Text.upper, Text.upperPoint, hx, hy, Text.ofChars]
  -- white space is left in the data only if the code is that of field data
  have hdataspace : Text.ofChars [x, y] ≠ "FD" → ∀ z ∈ data, Script.isSpace z = false := by
    intro hname
    apply hdata
    rw [← Bool.not_eq_true]
    intro hfield
    obtain ⟨hF, hD⟩ := Script.capitals_of_isFieldData hfield
    obtain rfl := (List.cons.inj (hx.symm.trans hF)).1
    obtain rfl := (List.cons.inj (hy.symm.trans hD)).1
    exact hname rfl
  by_cases hfont : x = 'A' ∧ y ≠ '@'
  · -- the second character belongs to the first argument, and is not `@`
    obtain ⟨rfl, hat⟩ := hfont
    have hparse : parse (.ofChars (m :: c :: d :: data)) =
        ⟨some (.char m), .ofChars ['A'], splitArgs (.ofChars (d :: data))⟩ := by
      refine parse_of_font (congrArg (·.points.head?) hupper) ?_
      intro hname
      have hname := hupper.symm.trans hname
      cases hname
      exact absurd rfl hat
    have hsecond : ∀ t ∈ (splitArgs (.ofChars (d :: data))).head?,
        t.points.head? ≠ some (.char '@') := by
      intro t ht hhead
      obtain ⟨ts, hts⟩ := List.head?_eq_some_iff.1 ht
      have hjoin : (joinArgs (t :: ts)).points.head? = some (.char '@') := head?_joinArgs hhead
      rw [← hts, joinArgs_splitArgs] at hjoin
      cases hjoin
      have hy' : ['@'] = [y] := hy
      exact hat (List.cons.inj hy').1.symm
    rw [hparse]
    refine isCanonical_mk hm (by simpa using hxcode) (.font hsecond) ?_ fun _ => ?_
    · exact List.forall_mem_cons.2 ⟨hdmark, hdatamark⟩
    · refine List.forall_mem_cons.2 ⟨hdspace, hdataspace fun hname => ?_⟩
      cases hname
  · have hother : x = 'A' → y = '@' := by tauto
    have hparse : parse (.ofChars (m :: c :: d :: data)) =
        ⟨some (.char m), .ofChars [x, y], splitArgs (.ofChars data)⟩ := by
      refine (parse_of_code fun hhead => ?_).trans (congrArg (Command.mk _ · _) hupper)
      have hhead := (congrArg (·.points.head?) hupper).symm.trans hhead
      cases hhead
      rw [hother rfl] at hupper
      exact hupper
    rw [hparse]
    refine isCanonical_mk hm (by simp [hxcode, hycode]) ?_ hdatamark hdataspace
    by_cases hA : x = 'A'
    · subst hA
      rw [hother rfl]
      exact .namedFont _
    · exact .pair hA _

/-- A token as the reader makes it, with a code in ASCII, is read as a command in canonical form. -/
theorem isCanonical_parse {m : Char} {kept : List Char} (hm : Script.isMark m = true)
    (hmark : ∀ x ∈ kept, Script.isMark x = false) (htight : Script.IsTight kept)
    (hascii : HasAsciiCode (.ofChars (m :: kept))) :
    (parse (.ofChars (m :: kept))).IsCanonical := by
  have hcode := hascii.toNat_lt
  match kept with
  | [] | [_] => exact isCanonical_parse_short hm hmark htight hcode (by simp)
  | c :: d :: data =>
    exact isCanonical_parse_long hm hmark htight (hcode c (by simp)) (hcode d (by simp))

/-! ### Documents -/

/-- What is written for a canonical command is a piece, of which everything is kept. -/
theorem exists_piece {c : Command} (h : c.IsCanonical) (hwhole : c.render.IsWhole) :
    ∃ m kept, c.render = .ofChars (m :: kept) ∧ Script.isMark m = true ∧
      (∀ x ∈ kept, Script.isMark x = false) ∧ Script.IsTight kept := by
  obtain ⟨m, hm, hmark⟩ := h.mark
  obtain ⟨code, hname, hcode, hshape⟩ := h.name
  obtain ⟨joined, hjoined⟩ := (Text.isWhole_append.1 hwhole).2.eq_ofChars
  have hrender : c.render = .ofChars (m :: (code ++ joined)) := by
    unfold render
    rw [hm, hname, hjoined, ← List.singleton_append, Text.ofChars_append, Text.ofChars_append]
    rfl
  -- a character of the arguments is a comma or stands in one of them
  have hargs {q : Char → Bool} (hcomma : q ',' = false)
      (hall : ∀ t ∈ c.args, ∀ p ∈ t.points, p.meets q = false) : ∀ x ∈ joined, q x = false := by
    intro x hx
    have hmem : CodePoint.char x ∈ (joinArgs c.args).points := by
      rw [hjoined]
      exact List.mem_map_of_mem hx
    rcases of_mem_joinArgs hmem with heq | ⟨t, ht, hp⟩
    · cases heq
      exact hcomma
    · exact hall t ht _ hp
  have hjoinedmark := hargs (q := Script.isMark) (by decide) fun t ht p hp => (h.separate t ht p hp).2
  have hspace : c.name ≠ "FD" → ∀ x ∈ joined, Script.isSpace x = false := fun hne =>
    hargs (by decide) (h.tight hne)
  refine ⟨m, code ++ joined, hrender, hmark, ?_, ?_⟩
  · exact List.forall_mem_append.2
      ⟨fun x hx => Script.isMark_of_isCodeChar (hcode x hx), hjoinedmark⟩
  · by_cases hfield : c.name = "FD"
    · rw [hname] at hfield
      obtain rfl : code = ['F', 'D'] := Text.ofChars_injective hfield
      exact ⟨by decide, by decide, fun hno => absurd hno (by decide)⟩
    · apply Script.isTight_of_all
      exact List.forall_mem_append.2
        ⟨fun x hx => Script.isSpace_of_isCodeChar (hcode x hx), hspace hfield⟩

/-- The characters of canonical commands are pieces, whose tokens are the commands again. -/
theorem exists_pieces {cs : List Command} (h : ∀ c ∈ cs, c.IsCanonical) {chars : List Char}
    (hchars : .ofChars chars = written cs) :
    ∃ ps : List (List Char), chars = ps.flatten ∧ (∀ p ∈ ps, Script.IsPiece p) ∧
      (ps.map Script.token).map parse = cs := by
  -- induction on the commands, each of which is written as a piece of its own
  induction cs generalizing chars with
  | nil => exact ⟨[], Text.ofChars_injective hchars, by simp, rfl⟩
  | cons c cs ih =>
    have hwhole : (written (c :: cs)).IsWhole := hchars ▸ Text.isWhole_ofChars chars
    rw [written_cons, Text.isWhole_append] at hwhole
    rw [List.forall_mem_cons] at h
    obtain ⟨m, kept, hrender, hm, hkept, htight⟩ := exists_piece h.1 hwhole.1
    obtain ⟨rest, hrest⟩ := hwhole.2.eq_ofChars
    obtain ⟨ps, rfl, hps, hparse⟩ := ih h.2 hrest.symm
    have hsplit : chars = m :: kept ++ ps.flatten := by
      rw [written_cons, hrender, hrest, ← Text.ofChars_append] at hchars
      exact Text.ofChars_injective hchars
    have htoken : Script.token (m :: kept) = c.render := by
      rw [hrender, Script.token, Script.clean_of_isTight htight]
    refine ⟨(m :: kept) :: ps, hsplit, List.forall_mem_cons.2 ⟨⟨m, kept, rfl, hm, hkept⟩, hps⟩, ?_⟩
    rw [List.map_cons, List.map_cons, hparse, htoken, parse_render h.1]

/-- A text that was written of such commands is read as these commands. -/
theorem commands_of_written {cs : List Command} (h : ∀ c ∈ cs, c.IsCanonical) {chars : List Char}
    (hchars : .ofChars chars = written cs) : Script.commands chars = .ok cs := by
  obtain ⟨ps, rfl, hps, hparse⟩ := exists_pieces h hchars
  rw [Script.commands_eq, Script.tokens_of_mark (Script.head_flatten hps),
    Script.pieces_flatten hps]
  exact congrArg Except.ok hparse

/-- Reading a whole token and writing it again makes nothing that is not whole. -/
theorem isWhole_render_parse {token : Text} (h : token.IsWhole) :
    (parse token).render.IsWhole := by
  have hmark : (⟨token.points.head?.toList⟩ : Text).IsWhole := by
    apply h.mono
    intro p hp
    exact List.mem_of_mem_head? (Option.mem_toList.1 hp)
  have hname : (parse token).name.IsWhole := by
    unfold parse
    simp only
    split
    · exact Text.isWhole_ofString "A"
    · exact ((h.drop 1).take 2).upper
  have hargs : (joinArgs (parse token).args).IsWhole :=
    (Text.isWhole_intercalate (Text.isWhole_ofString ",")).2 (isWhole_parse h)
  -- the mark is the first code point in either case
  have hsame : (parse token).mark = token.points.head? := by
    unfold parse
    simp only
    split <;> rfl
  unfold render
  rw [hsame]
  exact (hmark.append hname).append hargs

/-- Whole commands make a whole text. -/
theorem isWhole_written {cs : List Command} (h : ∀ c ∈ cs, c.render.IsWhole) :
    (written cs).IsWhole := by
  intro p hp
  obtain ⟨c, hc, hp⟩ := List.mem_flatMap.1 hp
  exact h c hc p hp

end Command

namespace Reader

/-- Writing canonical commands and reading them is no change, as long as their text is a string,
which has bytes in UTF-8. What is read for a token whose code is spelled in ASCII is canonical, so
reading, writing and reading again gives what was read at first. -/
theorem commands_written (library : Codec.Library) :
    (∀ (cs : List Command) (text : String), (∀ c ∈ cs, c.IsCanonical) →
      Text.ofString text = Command.written cs →
        ∃ r, ofText library "utf-8" text = .ok r ∧ r.commands.2 = .ok cs) ∧
    (∀ text : String, ∃ r, ofText library "utf-8" text = .ok r ∧
      ∀ tokens c, Input.readAll r.encoding r.cursor = .ok tokens c →
        r.commands.2 = .ok (tokens.map Command.parse) ∧
        (∀ t ∈ tokens, Command.HasAsciiCode t → (Command.parse t).IsCanonical) ∧
        ((∀ t ∈ tokens, Command.HasAsciiCode t) →
          ∃ text' r', Text.ofString text' = Command.written (tokens.map Command.parse) ∧
            ofText library "utf-8" text' = .ok r' ∧ r'.commands.2 = r.commands.2)) := by
  -- the first part, which the third one uses for the text that is written again
  have hback : ∀ (cs : List Command) (text : String), (∀ c ∈ cs, c.IsCanonical) →
      Text.ofString text = Command.written cs → (ofUtf8 text).commands.2 = .ok cs := by
    intro cs text h htext
    rw [commands_ofUtf8, Command.commands_of_written h htext]
    rfl
  refine ⟨fun cs text h htext => ⟨_, ofText_utf8 library text, hback cs text h htext⟩,
    fun text => ⟨_, ofText_utf8 library text, fun tokens c hread => ?_⟩⟩
  have hanswer := answer_readAll_ofUtf8 text
  rw [hread] at hanswer
  have htokens := Script.of_mem_tokens hanswer.symm
  have hcommands : (ofUtf8 text).commands.2 = .ok (tokens.map Command.parse) := by
    unfold commands
    rw [hread]
  have hcanonical : ∀ t ∈ tokens, Command.HasAsciiCode t → (Command.parse t).IsCanonical := by
    intro t ht hascii
    obtain ⟨m, kept, rfl, hm, hmark, htight⟩ := htokens t ht
    exact Command.isCanonical_parse hm hmark htight hascii
  refine ⟨hcommands, hcanonical, fun hascii => ?_⟩
  have hall : ∀ c ∈ tokens.map Command.parse, c.IsCanonical ∧ c.render.IsWhole := by
    intro c hc
    obtain ⟨t, ht, rfl⟩ := List.mem_map.1 hc
    obtain ⟨m, kept, rfl, -⟩ := htokens t ht
    exact ⟨hcanonical _ ht (hascii _ ht),
      Command.isWhole_render_parse (Text.isWhole_ofChars (m :: kept))⟩
  -- what is written of whole tokens is whole, so it is a text that can be read
  obtain ⟨chars, hchars⟩ := (Command.isWhole_written fun c hc => (hall c hc).2).eq_ofChars
  have htext : Text.ofString (String.ofList chars) =
      Command.written (tokens.map Command.parse) := by
    rw [Text.ofString, String.toList_ofList, hchars]
  refine ⟨_, _, htext, ofText_utf8 library _, ?_⟩
  rw [hcommands, hback _ _ (fun c hc => (hall c hc).1) htext]

/-- A font command with an empty first argument, a code that is too short in the middle, and white
space in field data; and a text in small letters, which is written in another way than it was. -/
theorem commands_written_label :
    (∃ r, ofText .standard "utf-8" "^XA^A,40~^A@N,E:F^FD a, é\t^XZ" = .ok r ∧
      r.commands.2 = .ok [⟨some (.char '^'), "XA", []⟩, ⟨some (.char '^'), "A", ["", "40"]⟩,
        ⟨some (.char '~'), "", []⟩, ⟨some (.char '^'), "A@", ["N", "E:F"]⟩,
        ⟨some (.char '^'), "FD", [" a", " é\t"]⟩, ⟨some (.char '^'), "XZ", []⟩]) ∧
    ∃ r tokens c, ofText .standard "utf-8" " ^a0, 1~f d ß," = .ok r ∧
      Input.readAll r.encoding r.cursor = .ok tokens c ∧
      (∀ t ∈ tokens, Command.HasAsciiCode t) ∧
      (∀ t ∈ tokens, (Command.parse t).IsCanonical) ∧
      ∃ text' r', Text.ofString text' = Command.written (tokens.map Command.parse) ∧
        ofText .standard "utf-8" text' = .ok r' ∧ r'.commands.2 = r.commands.2 := by
  constructor
  · refine (commands_written .standard).1 _ _ ?_ (by decide)
    have hcode {code : List Char} (h : code.all Script.isCodeChar = true) :
        ∀ x ∈ code, Script.isCodeChar x = true := List.all_eq_true.1 h
    have hfirst : ∀ t ∈ ([("" : Text), "40"] : List Text).head?,
        t.points.head? ≠ some (.char '@') := by decide
    simp only [List.forall_mem_cons, List.not_mem_nil, false_imp_iff, implies_true, and_true]
    exact ⟨⟨⟨_, rfl, rfl⟩, ⟨['X', 'A'], rfl, hcode rfl, .pair (by decide) _⟩, by decide, by decide,
        fun _ => by decide⟩,
      ⟨⟨_, rfl, rfl⟩, ⟨['A'], rfl, hcode rfl, .font hfirst⟩, by decide, by decide,
        fun _ => by decide⟩,
      ⟨⟨_, rfl, rfl⟩, ⟨[], rfl, hcode rfl, .none⟩, by decide, by decide, fun _ => by decide⟩,
      ⟨⟨_, rfl, rfl⟩, ⟨['A', '@'], rfl, hcode rfl, .namedFont _⟩, by decide, by decide,
        fun _ => by decide⟩,
      ⟨⟨_, rfl, rfl⟩, ⟨['F', 'D'], rfl, hcode rfl, .pair (by decide) _⟩, by decide, by decide,
        fun h => absurd rfl h⟩,
      ⟨⟨_, rfl, rfl⟩, ⟨['X', 'Z'], rfl, hcode rfl, .pair (by decide) _⟩, by decide, by decide,
        fun _ => by decide⟩⟩
  · obtain ⟨r, hr, hall⟩ := (commands_written .standard).2 " ^a0, 1~f d ß,"
    obtain rfl : ofUtf8 " ^a0, 1~f d ß," = r := by
      rw [ofText_utf8] at hr
      exact Except.ok.inj hr
    have htokens : Script.tokens " ^a0, 1~f d ß,".toList = .ok ["^a0,1", "~fd ß,"] := by decide
    have hanswer := (answer_readAll_ofUtf8 " ^a0, 1~f d ß,").trans htokens
    cases hread : Input.readAll (ofUtf8 " ^a0, 1~f d ß,").encoding (ofUtf8 " ^a0, 1~f d ß,").cursor with
    | error fault c =>
      rw [hread] at hanswer
      cases hanswer
    | ok tokens c =>
      rw [hread] at hanswer
      obtain rfl : tokens = ["^a0,1", "~fd ß,"] := Except.ok.inj hanswer
      have hascii : ∀ t ∈ (["^a0,1", "~fd ß,"] : List Text), Command.HasAsciiCode t := by
        intro t ht
        rcases List.mem_cons.1 ht with rfl | ht
        · unfold Command.HasAsciiCode
          decide
        · rw [List.mem_singleton.1 ht]
          unfold Command.HasAsciiCode
          decide
      obtain ⟨-, hcanonical, hwritten⟩ := hall _ c hread
      exact ⟨_, _, c, hr, hread, hascii, fun t ht => hcanonical t ht (hascii t ht),
        hwritten hascii⟩

end Reader

end LabelPress
