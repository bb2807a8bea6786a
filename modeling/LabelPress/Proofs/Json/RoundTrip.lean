import LabelPress.Proofs.Association
import LabelPress.Proofs.Json.Numbers
import LabelPress.Proofs.Json.Strings

/-!
# Values written and read back

What is written for a value is read as this value, in every layout whose gaps are white space, if
the numbers in it read back, no object in it has two members of one name, and its lists and objects
do not stand too deep in one another (`Legible`). Halves of a pair that meet in a text come back
joined: `parse_render`. The joined value is written as the value is: `render_joined`.
-/

namespace LabelPress.Json

/-! ## Joined values -/

mutual

/-- The value with halves of a pair joined in all its texts. -/
def joined : Json → Json
  | .null => .null
  | .bool b => .bool b
  | .number n => .number n
  | .string t => .string t.joined
  | .array xs => .array (joinedItems xs)
  | .object ms => .object (joinedMembers ms)

def joinedItems : List Json → List Json
  | [] => []
  | x :: xs => joined x :: joinedItems xs

def joinedMembers : List (Text × Json) → List (Text × Json)
  | [] => []
  | (name, x) :: ms => (name.joined, joined x) :: joinedMembers ms

end

theorem joinedItems_eq (xs : List Json) : joinedItems xs = xs.map joined := by
  induction xs with
  | nil => rfl
  | cons x xs ih => rw [joinedItems, ih, List.map_cons]

theorem joinedMembers_eq (ms : List (Text × Json)) :
    joinedMembers ms = ms.map fun m => (m.1.joined, m.2.joined) := by
  induction ms with
  | nil => rfl
  | cons m ms ih => rw [joinedMembers, ih, List.map_cons]

@[simp] theorem joined_array (xs : List Json) : (array xs).joined = .array (xs.map joined) := by
  rw [joined, joinedItems_eq]

@[simp] theorem joined_object (ms : List (Text × Json)) :
    (object ms).joined = .object (ms.map fun m => (m.1.joined, m.2.joined)) := by
  rw [joined, joinedMembers_eq]

mutual

/-- Once the halves of pairs are joined in a value, nothing is left to join. -/
theorem joined_joined (x : Json) : x.joined.joined = x.joined := by
  cases x with
  | null | bool | number => rfl
  | string t => rw [joined, joined, Text.joined_joined]
  | array xs => rw [joined, joined, joinedItems_joinedItems xs]
  | object ms => rw [joined, joined, joinedMembers_joinedMembers ms]

theorem joinedItems_joinedItems (xs : List Json) :
    joinedItems (joinedItems xs) = joinedItems xs := by
  cases xs with
  | nil => rfl
  | cons x xs => rw [joinedItems, joinedItems, joined_joined x, joinedItems_joinedItems xs]

theorem joinedMembers_joinedMembers (ms : List (Text × Json)) :
    joinedMembers (joinedMembers ms) = joinedMembers ms := by
  match ms with
  | [] => rfl
  | (name, x) :: ms =>
    rw [joinedMembers, joinedMembers, Text.joined_joined, joined_joined x,
      joinedMembers_joinedMembers ms]

end

mutual

/-- A value and its joined form are written alike, for they have the same units. -/
theorem chars_joined (l : Layout) (depth : Nat) (x : Json) :
    chars l depth x.joined = chars l depth x := by
  cases x with
  | null | bool | number => rfl
  | string t => rw [joined, chars, chars, stringChars_joined]
  | array xs => rw [joined, chars, chars, itemChars_joined l (depth + 1) xs]
  | object ms => rw [joined, chars, chars, memberChars_joined l (depth + 1) ms]

theorem itemChars_joined (l : Layout) (depth : Nat) (xs : List Json) :
    itemChars l depth (joinedItems xs) = itemChars l depth xs := by
  cases xs with
  | nil => rfl
  | cons x xs =>
    rw [joinedItems, itemChars, itemChars, chars_joined l depth x, itemChars_joined l depth xs]

theorem memberChars_joined (l : Layout) (depth : Nat) (ms : List (Text × Json)) :
    memberChars l depth (joinedMembers ms) = memberChars l depth ms := by
  match ms with
  | [] => rfl
  | (name, x) :: ms =>
    rw [joinedMembers, memberChars, memberChars, stringChars_joined, chars_joined l depth x,
      memberChars_joined l depth ms]

end

theorem render_joined (l : Layout) (x : Json) : render l x.joined = render l x :=
  congrArg String.ofList (chars_joined l 0 x)

/-! ## Values that can be read back -/

/-- Values that are read back: their numbers are, the members of an object have different names, and
lists and objects stand in one another up to a depth. -/
inductive Legible : Nat → Json → Prop
  | null {depth : Nat} : Legible depth .null
  | bool {depth : Nat} (b : Bool) : Legible depth (.bool b)
  | number {depth : Nat} {n : Number} (h : ReadsBack n) : Legible depth (.number n)
  | string {depth : Nat} (t : Text) : Legible depth (.string t)
  | array {depth : Nat} {xs : List Json} (h : ∀ x ∈ xs, Legible depth x) :
    Legible (depth + 1) (.array xs)
  | object {depth : Nat} {ms : List (Text × Json)} (h : ∀ m ∈ ms, Legible depth m.2)
      (hnames : (ms.map (·.1.joined)).Nodup) : Legible (depth + 1) (.object ms)

/-- The gaps of a layout are white space. -/
def Layout.IsBlank : Layout → Prop
  | .line => True
  | .indented unit => ∀ c ∈ unit, isSpace c = true

variable {l : Layout} {depth d : Nat} {rest blank : List Char}

/-- Between two marks of the document stands white space only. -/
theorem Layout.IsBlank.gap (h : l.IsBlank) (d : Nat) : ∀ c ∈ l.gap d, isSpace c = true := by
  cases l with
  | line => simp [Layout.gap]
  | indented unit =>
    refine List.forall_mem_cons.2 ⟨by decide, fun c hc => ?_⟩
    obtain ⟨cs, hcs, hmem⟩ := List.mem_flatten.1 hc
    rw [(List.mem_replicate.1 hcs).2] at hmem
    exact h c hmem

/-- Two items are separated by a comma and white space. -/
theorem Layout.IsBlank.separator (h : l.IsBlank) (d : Nat) :
    ∃ blank, l.separator d = ',' :: blank ∧ ∀ c ∈ blank, isSpace c = true := by
  cases l with
  | line => exact ⟨[' '], rfl, List.forall_mem_singleton.2 rfl⟩
  | indented unit => exact ⟨_, rfl, h.gap d⟩

theorem mem_delimiters_of_isSpace {c : Char} (h : isSpace c = true) : c ∈ delimiters := by
  simp only [isSpace, Bool.or_eq_true, beq_iff_eq] at h
  rcases h with ((rfl | rfl) | rfl) | rfl <;> decide

/-- White space and then a delimiter can stand behind a value. -/
theorem ends_blank (hblank : ∀ c ∈ blank, isSpace c = true) {c : Char} (hc : c ∈ delimiters)
    (rest : List Char) : Ends (blank ++ c :: rest) := by
  cases blank with
  | nil => exact .cons hc rest
  | cons b blank => exact .cons (mem_delimiters_of_isSpace (hblank b List.mem_cons_self)) _

theorem skipSpace_blank (hblank : ∀ c ∈ blank, isSpace c = true) {c : Char}
    (hc : isSpace c = false) (rest : List Char) : skipSpace (blank ++ c :: rest) = c :: rest := by
  unfold skipSpace
  rw [List.dropWhile_append_of_pos hblank, List.dropWhile_cons_of_neg (by simp [hc])]

/-- A value does not begin with white space or a closing bracket. -/
theorem Legible.head {x : Json} (h : Legible depth x) :
    ∃ c tail, chars l d x = c :: tail ∧ isSpace c = false ∧ c ≠ ']' := by
  -- each kind of value begins with a character of its own
  cases h with
  | null => exact ⟨'n', _, rfl, by decide, by decide⟩
  | bool b =>
    cases b with
    | true => exact ⟨'t', _, rfl, by decide, by decide⟩
    | false => exact ⟨'f', _, rfl, by decide, by decide⟩
  | number hn =>
    obtain ⟨c, tail, hcs, hspace, hc⟩ := hn.head
    exact ⟨c, tail, hcs, hspace, by rintro rfl; simp at hc⟩
  | string t => exact ⟨'"', _, rfl, by decide, by decide⟩
  | array =>
    rw [chars, enclose]
    split
    · exact ⟨'[', _, rfl, by decide, by decide⟩
    · exact ⟨'[', _, rfl, by decide, by decide⟩
  | object =>
    rw [chars, enclose]
    split
    · exact ⟨'\x7b', _, rfl, by decide, by decide⟩
    · exact ⟨'\x7b', _, rfl, by decide, by decide⟩

/-! ## Reading with a bound on the calls -/

/-- Values are read back with so many calls. -/
def ReadsValues (l : Layout) (fuel : Nat) : Prop :=
  ∀ {depth d : Nat} {x : Json} {rest : List Char}, Legible depth x →
    2 * (chars l d x).length ≤ fuel + 1 → Ends rest →
      readValue fuel depth (chars l d x ++ rest) = .ok (x.joined, rest)

/-- The items of a list are read back with so many calls. -/
def ReadsItems (l : Layout) (fuel : Nat) : Prop :=
  ∀ {depth d : Nat} {x : Json} {xs : List Json} {blank rest : List Char},
    (∀ y ∈ x :: xs, Legible depth y) →
    2 * ((itemChars l d (x :: xs)).map List.length).sum ≤ fuel →
    (∀ c ∈ blank, isSpace c = true) →
      readItems fuel depth
          ((l.separator d).intercalate (itemChars l d (x :: xs)) ++ (blank ++ ']' :: rest)) =
        .ok ((x :: xs).map joined, rest)

/-- The members of an object, behind those that have been read, are read back with so many calls. -/
def ReadsMembers (l : Layout) (fuel : Nat) : Prop :=
  ∀ {depth d : Nat} {before : List (Text × Json)} {m : Text × Json} {ms : List (Text × Json)}
    {blank rest : List Char},
    (∀ y ∈ m :: ms, Legible depth y.2) →
    (before.map (·.1) ++ (m :: ms).map (·.1.joined)).Nodup →
    2 * ((memberChars l d (m :: ms)).map List.length).sum ≤ fuel →
    (∀ c ∈ blank, isSpace c = true) →
      readMembers fuel depth before
          ((l.separator d).intercalate (memberChars l d (m :: ms)) ++ (blank ++ '\x7d' :: rest)) =
        .ok (before ++ (m :: ms).map (fun y => (y.1.joined, y.2.joined)), rest)

theorem Legible.length_pos {x : Json} (h : Legible depth x) : 0 < (chars l d x).length := by
  obtain ⟨c, tail, hcs, -⟩ := h.head (l := l) (d := d)
  rw [hcs]
  exact Nat.succ_pos _

/-- A row of parts begins as its first part does. -/
theorem intercalate_cons (separator first : List Char) (others : List (List Char)) :
    ∃ more, separator.intercalate (first :: others) = first ++ more := by
  cases others with
  | nil => exact ⟨[], by simp⟩
  | cons second others =>
    exact ⟨separator ++ separator.intercalate (second :: others), by
      rw [List.intercalate_cons_cons, List.append_assoc]⟩

/-- With one more call, the entries of a list are read back if single values are and the rest of the
entries is. -/
theorem readsItems_succ (hl : l.IsBlank) {fuel : Nat} (hvalues : ReadsValues l fuel)
    (hitems : ReadsItems l fuel) : ReadsItems l (fuel + 1) := by
  intro depth d x xs blank rest hlegible hfuel hblank
  have hx := hlegible x List.mem_cons_self
  have hpos := hx.length_pos (l := l) (d := d)
  cases xs with
  | nil =>
    have hread := hvalues (d := d) hx (by simpa [itemChars] using hfuel)
      (ends_blank hblank (c := ']') (by decide) rest)
    have hparts : (l.separator d).intercalate (itemChars l d [x]) = chars l d x := by
      simp [itemChars]
    rw [hparts, readItems, hread]
    simp only [bind, Except.bind, skipSpace_blank hblank (c := ']') (by decide)]
    rfl
  | cons y ys =>
    -- the first item is read up to the comma, and the others behind the gap that follows it
    have hys : ∀ z ∈ y :: ys, Legible depth z := fun z hz => hlegible z (List.mem_cons_of_mem x hz)
    obtain ⟨gap, hgap, hspace⟩ := hl.separator d
    obtain ⟨c, tail, hcs, hc, -⟩ := (hys y List.mem_cons_self).head (l := l) (d := d)
    obtain ⟨more, hmore⟩ := intercalate_cons (l.separator d) (chars l d y) (itemChars l d ys)
    have hparts : (l.separator d).intercalate (itemChars l d (x :: y :: ys)) ++
        (blank ++ ']' :: rest) = chars l d x ++ (',' :: (gap ++
          ((l.separator d).intercalate (itemChars l d (y :: ys)) ++ (blank ++ ']' :: rest)))) := by
      rw [itemChars, itemChars, List.intercalate_cons_cons, hgap]
      simp only [List.append_assoc, List.cons_append]
    have hsum : ((itemChars l d (x :: y :: ys)).map List.length).sum =
        (chars l d x).length + ((itemChars l d (y :: ys)).map List.length).sum := rfl
    have hread := hvalues (d := d) hx (by omega) (.cons (c := ',') (by decide) (gap ++
      ((l.separator d).intercalate (itemChars l d (y :: ys)) ++ (blank ++ ']' :: rest))))
    have hskip : skipSpace (gap ++
        ((l.separator d).intercalate (itemChars l d (y :: ys)) ++ (blank ++ ']' :: rest))) =
          (l.separator d).intercalate (itemChars l d (y :: ys)) ++ (blank ++ ']' :: rest) := by
      rw [itemChars, hmore, hcs]
      exact skipSpace_blank hspace hc _
    have hcomma (cs : List Char) : skipSpace (',' :: cs) = ',' :: cs := rfl
    rw [hparts, readItems, hread]
    simp only [bind, Except.bind, hcomma, hskip, hitems (d := d) hys (by omega) hblank]
    rfl

/-- A member of another name goes to the end. -/
theorem insert_of_notMem {before : List (Text × Json)} {name : Text}
    (h : name ∉ before.map (·.1)) (x : Json) : insert before name x = before ++ [(name, x)] :=
  Association.set_of_notMem h x

/-- With one more call, the members of an object are read back likewise. That their names differ
keeps each member from taking the place of an earlier one. -/
theorem readsMembers_succ (hl : l.IsBlank) {fuel : Nat} (hvalues : ReadsValues l fuel)
    (hmembers : ReadsMembers l fuel) : ReadsMembers l (fuel + 1) := by
  intro depth d before m ms blank rest hlegible hnames hfuel hblank
  obtain ⟨name, x⟩ := m
  have hx : Legible depth x := hlegible (name, x) List.mem_cons_self
  have hfresh : name.joined ∉ before.map (·.1) := fun hmem =>
    (List.nodup_append.1 hnames).2.2 _ hmem name.joined List.mem_cons_self rfl
  obtain ⟨c, tail, hcs, hc, -⟩ := hx.head (l := l) (d := d)
  have hcolon (cs : List Char) : skipSpace (':' :: cs) = ':' :: cs := rfl
  have hcomma (cs : List Char) : skipSpace (',' :: cs) = ',' :: cs := rfl
  have hvalue (cs : List Char) : skipSpace (' ' :: (chars l d x ++ cs)) = chars l d x ++ cs := by
    have hspace : ∀ c ∈ [' '], isSpace c = true := List.forall_mem_singleton.2 rfl
    rw [hcs]
    exact skipSpace_blank hspace hc _
  cases ms with
  | nil =>
    have hsum : ((memberChars l d [(name, x)]).map List.length).sum =
        (stringChars name).length + ((chars l d x).length + 2) := by
      simp [memberChars]
    have hread := hvalues (d := d) hx (by omega) (ends_blank hblank (c := '\x7d') (by decide) rest)
    have hparts : (l.separator d).intercalate (memberChars l d [(name, x)]) ++
        (blank ++ '\x7d' :: rest) = '"' :: (name.points.flatMap escapePoint ++ '"' ::
          (':' :: ' ' :: (chars l d x ++ (blank ++ '\x7d' :: rest)))) := by
      simp [memberChars, stringChars]
    rw [hparts, readMembers]
    simp only [readString_stringChars, bind, Except.bind, hcolon, hvalue, hread,
      skipSpace_blank hblank (c := '\x7d') (by decide), insert_of_notMem hfresh]
    rfl
  | cons y ys =>
    have hys : ∀ z ∈ y :: ys, Legible depth z.2 := fun z hz =>
      hlegible z (List.mem_cons_of_mem (name, x) hz)
    -- the first member joins those that have been read, and its name is none of the later ones
    have hothers : ((before ++ [(name.joined, x.joined)]).map (·.1) ++
        (y :: ys).map (·.1.joined)).Nodup := by
      simpa [List.append_assoc] using hnames
    obtain ⟨gap, hgap, hspace⟩ := hl.separator d
    obtain ⟨more, hmore⟩ := intercalate_cons (l.separator d)
      (stringChars y.1 ++ ':' :: ' ' :: chars l d y.2) (memberChars l d ys)
    have hparts : (l.separator d).intercalate (memberChars l d ((name, x) :: y :: ys)) ++
        (blank ++ '\x7d' :: rest) = '"' :: (name.points.flatMap escapePoint ++ '"' ::
          (':' :: ' ' :: (chars l d x ++ (',' :: (gap ++
            ((l.separator d).intercalate (memberChars l d (y :: ys)) ++
              (blank ++ '\x7d' :: rest))))))) := by
      rw [memberChars, memberChars, List.intercalate_cons_cons, hgap, stringChars]
      simp only [List.append_assoc, List.cons_append, List.nil_append]
    have hsum : ((memberChars l d ((name, x) :: y :: ys)).map List.length).sum =
        (stringChars name).length + ((chars l d x).length + 2) +
          ((memberChars l d (y :: ys)).map List.length).sum := by
      rw [memberChars, List.map_cons, List.sum_cons, List.length_append]
      rfl
    have hread := hvalues (d := d) hx (by omega) (.cons (c := ',') (by decide) (gap ++
      ((l.separator d).intercalate (memberChars l d (y :: ys)) ++ (blank ++ '\x7d' :: rest))))
    have hskip : skipSpace (gap ++ ((l.separator d).intercalate (memberChars l d (y :: ys)) ++
        (blank ++ '\x7d' :: rest))) =
          (l.separator d).intercalate (memberChars l d (y :: ys)) ++ (blank ++ '\x7d' :: rest) := by
      rw [memberChars, hmore]
      exact skipSpace_blank hspace (c := '"') (by decide) _
    rw [hparts, readMembers]
    simp only [readString_stringChars, bind, Except.bind, hcolon, hvalue, hread, hcomma, hskip,
      insert_of_notMem hfresh, hmembers (d := d) hys hothers (by omega) hblank]
    simp

/-- A string is read back with its halves joined. -/
theorem readValue_string (t : Text) (fuel depth : Nat) (rest : List Char) :
    readValue (fuel + 1) depth (stringChars t ++ rest) = .ok (.string t.joined, rest) := by
  have hchars : stringChars t ++ rest = '"' :: (t.points.flatMap escapePoint ++ '"' :: rest) := by
    simp [stringChars]
  rw [hchars, readValue, readString_stringChars]
  rfl

/-- A list is read item by item, unless it is empty. -/
theorem readValue_array {fuel depth : Nat} {c : Char} {tail gap : List Char}
    (hgap : ∀ c ∈ gap, isSpace c = true) (hc : isSpace c = false) (hclose : c ≠ ']') :
    readValue (fuel + 1) (depth + 1) ('[' :: (gap ++ c :: tail)) =
      (fun r => (.array r.1, r.2)) <$> readItems fuel depth (c :: tail) := by
  rw [readValue, skipSpace_blank hgap hc]
  simp only
  split
  · next heq => exact absurd (List.cons.inj heq).1 hclose
  · rfl

/-- An object that is not empty is read member by member. -/
theorem readValue_object {fuel depth : Nat} {c : Char} {tail gap : List Char}
    (hgap : ∀ c ∈ gap, isSpace c = true) (hc : isSpace c = false) (hclose : c ≠ '\x7d') :
    readValue (fuel + 1) (depth + 1) ('\x7b' :: (gap ++ c :: tail)) =
      (fun r => (.object r.1, r.2)) <$> readMembers fuel depth [] (c :: tail) := by
  rw [readValue, skipSpace_blank hgap hc]
  simp only
  split
  · next heq => exact absurd (List.cons.inj heq).1 hclose
  · rfl

/-- Brackets and what stands between them. -/
theorem enclose_cons (l : Layout) (d : Nat) (opening closing : Char) (first : List Char)
    (others : List (List Char)) (rest : List Char) :
    enclose l d opening closing (first :: others) ++ rest =
      opening :: (l.gap (d + 1) ++
        ((l.separator (d + 1)).intercalate (first :: others) ++ (l.gap d ++ closing :: rest))) := by
  simp [enclose]

/-- The parts of a row are no longer than the row. -/
theorem sum_le_intercalate (separator : List Char) (parts : List (List Char)) :
    (parts.map List.length).sum ≤ (separator.intercalate parts).length := by
  induction parts with
  | nil => simp
  | cons first others ih =>
    cases others with
    | nil => simp
    | cons second others =>
      rw [List.intercalate_cons_cons, List.length_append, List.length_append, List.map_cons,
        List.sum_cons]
      omega

/-- Brackets take up two characters more than the parts between them. -/
theorem length_enclose (l : Layout) (d : Nat) (opening closing : Char) (first : List Char)
    (others : List (List Char)) :
    ((first :: others).map List.length).sum + 2 ≤
      (enclose l d opening closing (first :: others)).length := by
  have hchars := enclose_cons l d opening closing first others []
  have hsum := sum_le_intercalate (l.separator (d + 1)) (first :: others)
  rw [List.append_nil] at hchars
  simp only [hchars, List.length_cons, List.length_append, List.length_nil]
  omega

/-- With one more call, a value is read back: a scalar from its characters, a list or an object from
its parts. -/
theorem readsValues_succ (hl : l.IsBlank) {fuel : Nat} (hitems : ReadsItems l fuel)
    (hmembers : ReadsMembers l fuel) : ReadsValues l (fuel + 1) := by
  intro depth d x rest hlegible hfuel hrest
  cases hlegible with
  | null => exact readValue_scalar (c := 'n') (by decide) (by decide) (by decide) fuel depth _
  | bool b =>
    cases b with
    | true => exact readValue_scalar (c := 't') (by decide) (by decide) (by decide) fuel depth _
    | false => exact readValue_scalar (c := 'f') (by decide) (by decide) (by decide) fuel depth _
  | number h => exact h.readValue_append hrest fuel depth
  | string t => exact readValue_string t fuel depth rest
  | @array depth xs h =>
    cases xs with
    | nil => rfl
    | cons y ys =>
      -- the first item decides that the list is not empty, so its first character is needed
      obtain ⟨c, tail, hcs, hc, hclose⟩ :=
        (h y List.mem_cons_self).head (l := l) (d := d + 1)
      obtain ⟨more, hmore⟩ := intercalate_cons (l.separator (d + 1)) (chars l (d + 1) y)
        (itemChars l (d + 1) ys)
      have hchars : chars l d (.array (y :: ys)) =
          enclose l d '[' ']' (chars l (d + 1) y :: itemChars l (d + 1) ys) := by
        rw [chars, itemChars]
      have hlength := length_enclose l d '[' ']' (chars l (d + 1) y) (itemChars l (d + 1) ys)
      have hread : readItems fuel depth ((l.separator (d + 1)).intercalate
          (chars l (d + 1) y :: itemChars l (d + 1) ys) ++ (l.gap d ++ ']' :: rest)) =
            .ok ((y :: ys).map joined, rest) := by
        refine hitems h ?_ (hl.gap d)
        rw [itemChars]
        rw [hchars] at hfuel
        omega
      rw [hmore, hcs, List.cons_append, List.cons_append] at hread
      rw [hchars, enclose_cons, hmore, hcs, List.cons_append, List.cons_append,
        readValue_array (hl.gap (d + 1)) hc hclose, hread, joined_array]
      rfl
  | @object depth ms h hnames =>
    cases ms with
    | nil => rfl
    | cons m ms =>
      obtain ⟨more, hmore⟩ := intercalate_cons (l.separator (d + 1))
        (stringChars m.1 ++ ':' :: ' ' :: chars l (d + 1) m.2) (memberChars l (d + 1) ms)
      have hchars : chars l d (.object (m :: ms)) = enclose l d '\x7b' '\x7d'
          ((stringChars m.1 ++ ':' :: ' ' :: chars l (d + 1) m.2) :: memberChars l (d + 1) ms) := by
        rw [chars, memberChars]
      have hlength := length_enclose l d '\x7b' '\x7d'
        (stringChars m.1 ++ ':' :: ' ' :: chars l (d + 1) m.2) (memberChars l (d + 1) ms)
      have hread : readMembers fuel depth [] ((l.separator (d + 1)).intercalate
          ((stringChars m.1 ++ ':' :: ' ' :: chars l (d + 1) m.2) :: memberChars l (d + 1) ms) ++
            (l.gap d ++ '\x7d' :: rest)) =
              .ok ([] ++ (m :: ms).map (fun y => (y.1.joined, y.2.joined)), rest) := by
        refine hmembers h hnames ?_ (hl.gap d)
        rw [memberChars]
        rw [hchars] at hfuel
        omega
      rw [hmore, stringChars, List.cons_append, List.cons_append, List.cons_append,
        List.cons_append] at hread
      rw [hchars, enclose_cons, hmore, stringChars, List.cons_append, List.cons_append,
        List.cons_append, List.cons_append,
        readValue_object (hl.gap (d + 1)) (c := '"') (by decide) (by decide), hread, joined_object]
      rfl

/-- The three readings are proved together, for each calls the others with one call less. -/
theorem reads (hl : l.IsBlank) (fuel : Nat) :
    ReadsValues l fuel ∧ ReadsItems l fuel ∧ ReadsMembers l fuel := by
  -- by induction on the bound; with a bound of nothing there is nothing to read
  induction fuel with
  | zero =>
    refine ⟨?_, ?_, ?_⟩
    · intro depth d x rest h hfuel
      have := h.length_pos (l := l) (d := d)
      omega
    · intro depth d x xs blank rest h hfuel
      have := (h x List.mem_cons_self).length_pos (l := l) (d := d)
      rw [itemChars, List.map_cons, List.sum_cons] at hfuel
      omega
    · intro depth d before m ms blank rest h hnames hfuel
      rw [memberChars, List.map_cons, List.sum_cons, List.length_append, List.length_cons] at hfuel
      omega
  | succ fuel ih =>
    obtain ⟨hvalues, hitems, hmembers⟩ := ih
    exact ⟨readsValues_succ hl hitems hmembers, readsItems_succ hl hvalues hitems,
      readsMembers_succ hl hvalues hmembers⟩

/-- What is written for a value is read as this value, with halves joined. -/
theorem parse_render (hl : l.IsBlank) {x : Json} (h : Legible maxDepth x) :
    parse (render l x) = .ok x.joined := by
  obtain ⟨c, tail, hcs, hc, -⟩ := h.head (l := l) (d := 0)
  have hskip : skipSpace (chars l 0 x) = chars l 0 x := by
    rw [hcs]
    exact List.dropWhile_cons_of_neg (by simp [hc])
  have hread := (reads hl (2 * (chars l 0 x).length + 2)).1 h (d := 0) (by omega) Ends.nil
  rw [List.append_nil] at hread
  unfold parse render
  simp only [String.toList_ofList, hskip, bind, Except.bind, hread]
  rfl

end LabelPress.Json
