import LabelPress.Proofs.Association
import LabelPress.Proofs.Label.Step
import LabelPress.Proofs.Settings.Accepted

/-!
# Settings with other values

Values can take the place of those of settings any number of times. What comes of it depends on the last
value that is given under each name, nothing being no value (`Settings.lastGiven?`): if these are given
all at once, they make the same settings (`Settings.members_of_foldlM`). Each value of settings is the
very one that was given, of the same kind (`Settings.value_of_ofMembers`).

Every time the values are put in their places first, and then checked as a whole (`Settings.merged_eq`).
-/

namespace LabelPress

namespace Settings

/-- The names of the settings. -/
def names : List Text := fields.map (·.1)

/-- A value, if it is not nothing. -/
def something? : Json → Option Json
  | .null => none
  | x => some x

/-- The last value that is given under a name. -/
def lastGiven? (overrides : List (Text × Json)) (name : Text) : Option Json :=
  overrides.reverse.findSome? fun m => if m.1 = name then something? m.2 else none

/-- For each name the last value that is given under it, or nothing. -/
def lastOf (overrides : List (Text × Json)) : List (Text × Json) :=
  names.map fun name => (name, (lastGiven? overrides name).getD .null)

/-- The value of settings under a name. -/
def value (s : Settings) (name : Text) : Json :=
  (Json.lookup? s.members name).getD .null

/-- For each name the last value that is given under it, or that of the settings. -/
def combined (s : Settings) (overrides : List (Text × Json)) : List (Text × Json) :=
  names.map fun name => (name, (lastGiven? overrides name).getD (s.value name))

/-- The settings at hand after other values have been tried: those that they made, or those before if
they were refused. -/
def tried (library : Codec.Library) (s : Settings) (overrides : List (Text × Json)) : Settings :=
  match s.merged library overrides with
  | .ok t => t
  | .error _ => s

/-- Members with others put in their places, those that are nothing left out. -/
def overlay (members overrides : List (Text × Json)) : List (Text × Json) :=
  (given overrides).foldl (fun ms m => Json.insert ms m.1 m.2) members

variable {library : Codec.Library} {s t u : Settings} {members overrides more : List (Text × Json)} {name other : Text}
  {x : Json}

/-! ## The last value -/

theorem nodup_names : names.Nodup := by decide

theorem something?_eq_some_iff {y : Json} : something? x = some y ↔ x = y ∧ x ≠ .null := by
  cases x <;> simp [something?]

theorem lastGiven?_cons (other : Text) (x : Json) (overrides : List (Text × Json)) (name : Text) :
    lastGiven? ((other, x) :: overrides) name =
      (lastGiven? overrides name).or (if other = name then something? x else none) := by
  simp only [lastGiven?, List.reverse_cons, List.findSome?_append, List.findSome?_singleton]

theorem lastGiven?_append (overrides more : List (Text × Json)) (name : Text) :
    lastGiven? (overrides ++ more) name = (lastGiven? more name).or (lastGiven? overrides name) := by
  simp only [lastGiven?, List.reverse_append, List.findSome?_append]

/-- Nothing is never the last value. -/
theorem something?_of_lastGiven? (h : lastGiven? overrides name = some x) : something? x = some x := by
  obtain ⟨m, -, hm⟩ := List.exists_of_findSome?_eq_some h
  split at hm
  · obtain ⟨rfl, hnull⟩ := something?_eq_some_iff.1 hm
    exact something?_eq_some_iff.2 ⟨rfl, hnull⟩
  · cases hm

theorem lastGiven?_of_notMem (h : name ∉ overrides.map (·.1)) : lastGiven? overrides name = none := by
  unfold lastGiven?
  rw [List.findSome?_eq_none_iff]
  intro m hm
  exact if_neg fun hname => h (List.mem_map.2 ⟨m, List.mem_reverse.1 hm, hname⟩)

theorem lastGiven?_of_null (h : ∀ m ∈ overrides, m.2 = .null) (name : Text) :
    lastGiven? overrides name = none := by
  unfold lastGiven?
  rw [List.findSome?_eq_none_iff]
  intro m hm
  rw [h m (List.mem_reverse.1 hm)]
  exact ite_self none

/-- What is given last if each name is given one value. -/
theorem lastGiven?_map {ns : List Text} (hns : ns.Nodup) (h : name ∈ ns) (f : Text → Json) :
    lastGiven? (ns.map fun n => (n, f n)) name = something? (f name) := by
  induction ns with
  | nil => cases h
  | cons n ns ih =>
    obtain ⟨hn, hrest⟩ := List.nodup_cons.1 hns
    rw [List.map_cons, lastGiven?_cons]
    by_cases hname : n = name
    · subst hname
      have hnone : lastGiven? (ns.map fun m => (m, f m)) n = none :=
        lastGiven?_of_notMem (by simpa using hn)
      rw [hnone, if_pos rfl, Option.none_or]
    · rw [if_neg hname, Option.or_none]
      exact ih hrest ((List.mem_cons.1 h).resolve_left (Ne.symm hname))

/-- Giving the last values again changes nothing about them. -/
theorem lastGiven?_lastOf (h : name ∈ names) (overrides : List (Text × Json)) :
    lastGiven? (lastOf overrides) name = lastGiven? overrides name := by
  unfold lastOf
  rw [lastGiven?_map nodup_names h]
  cases hlast : lastGiven? overrides name with
  | none => rfl
  | some y => exact something?_of_lastGiven? hlast

/-! ## Values in their places -/

theorem overlay_null (members : List (Text × Json)) (name : Text) (overrides : List (Text × Json)) :
    overlay members ((name, .null) :: overrides) = overlay members overrides := rfl

/-- An override that is something is set before the others are. -/
theorem overlay_cons (hx : x ≠ .null) (members : List (Text × Json)) (name : Text)
    (overrides : List (Text × Json)) :
    overlay members ((name, x) :: overrides) = overlay (Json.insert members name x) overrides := by
  cases x with
  | null => exact absurd rfl hx
  | _ => rfl

/-- The last value that is given is found, or else the one that was there. -/
theorem lookup?_overlay (members overrides : List (Text × Json)) (name : Text) :
    Json.lookup? (overlay members overrides) name =
      (lastGiven? overrides name).or (Json.lookup? members name) := by
  -- induction on the overrides: each is set, or says nothing, and a later one hides it
  induction overrides generalizing members with
  | nil => rfl
  | cons m overrides ih =>
    obtain ⟨other, x⟩ := m
    rw [lastGiven?_cons]
    by_cases hx : x = .null
    · subst hx
      rw [overlay_null, ih, show something? .null = none from rfl, ite_self, Option.or_none]
    · have hsome : something? x = some x := something?_eq_some_iff.2 ⟨rfl, hx⟩
      rw [overlay_cons hx, ih, hsome]
      by_cases hname : other = name
      · subst hname
        have hfound : Json.lookup? (Json.insert members other x) other = some x :=
          Association.get?_set_self _ _ _
        rw [hfound, if_pos rfl, Option.or_assoc]
        rfl
      · have hfound : Json.lookup? (Json.insert members other x) name = Json.lookup? members name :=
          Association.get?_set_of_ne hname _ _
        rw [hfound, if_neg hname, Option.or_none]

/-- Overrides with known names add no names and change no order. -/
theorem keys_overlay (h : ∀ m ∈ overrides, m.1 ∈ members.map (·.1)) :
    (overlay members overrides).map (·.1) = members.map (·.1) := by
  induction overrides generalizing members with
  | nil => rfl
  | cons m overrides ih =>
    obtain ⟨other, x⟩ := m
    obtain ⟨hother, hrest⟩ := List.forall_mem_cons.1 h
    by_cases hx : x = .null
    · subst hx
      exact ih hrest
    · have hkeys : (Json.insert members other x).map (·.1) = members.map (·.1) :=
        Association.keys_set hother x
      rw [overlay_cons hx, ih (by rwa [hkeys]), hkeys]

/-! ## Values of settings -/

theorem names_combined (s : Settings) (overrides : List (Text × Json)) :
    (combined s overrides).map (·.1) = names := by
  unfold combined
  rw [List.map_map]
  exact List.map_id names

theorem lookup?_members (s : Settings) (h : name ∈ names) :
    Json.lookup? s.members name = some (s.value name) := by
  simp only [names, fields, List.map_cons, List.map_nil, List.mem_cons, List.not_mem_nil, or_false] at h
  rcases h with rfl | rfl | rfl | rfl <;> rfl

theorem lookup?_combined (s : Settings) (overrides : List (Text × Json)) (h : name ∈ names) :
    Json.lookup? (combined s overrides) name =
      some ((lastGiven? overrides name).getD (s.value name)) :=
  Association.get?_map_of_mem h _

/-- To set the overrides one after another is to look each name up in them once. -/
theorem overlay_members (h : ∀ m ∈ overrides, m.1 ∈ names) :
    overlay s.members overrides = combined s overrides := by
  have hkeys : (overlay s.members overrides).map (·.1) = names := keys_overlay h
  refine Association.ext_get? (hkeys.trans (names_combined s overrides).symm)
    (hkeys ▸ nodup_names) fun name hname => ?_
  rw [hkeys] at hname
  refine (lookup?_overlay _ _ _).trans (.trans ?_ (lookup?_combined s overrides hname).symm)
  rw [lookup?_members s hname]
  cases lastGiven? overrides name <;> rfl

/-- New values make the settings that the combined values make, and are refused with these. -/
theorem merged_eq (library : Codec.Library) (s : Settings) (h : ∀ m ∈ overrides, m.1 ∈ names) :
    s.merged library overrides = ofMembers library (combined s overrides) := by
  have hself : overrides.any (·.1 == "self") = false := by
    rw [List.any_eq_false]
    intro m hm hname
    have hmem := h m hm
    rw [beq_iff_eq.1 hname] at hmem
    exact absurd hmem (by decide)
  rw [← overlay_members h, merged, hself]
  rfl

/-- Members that are numbers are read as these numbers, and a missing one as the usual one. -/
theorem number_numberOr {usual : Number} {P : Number → Prop}
    (h : ∀ y, Json.lookup? members name = some y → ∃ n, y = .number n ∧ P n) :
    Json.number (numberOr members name usual) =
      (Json.lookup? members name).getD (.number usual) := by
  unfold numberOr
  cases hy : Json.lookup? members name with
  | none => rfl
  | some y =>
    obtain ⟨n, rfl, -⟩ := h y hy
    rfl

/-- The values of settings are those from which they were made, and the usual ones where there were
none. -/
theorem value_of_ofMembers (h : ofMembers library members = .ok s) (hname : name ∈ names) :
    s.value name = (Json.lookup? members name).getD (value {} name) := by
  unfold ofMembers at h
  split at h
  · cases h
  · next hcheck =>
    have hmet := check_eq_none.1 hcheck
    simp only at h
    split at h
    · cases h
    · next e he =>
      cases h
      simp only [names, fields, List.map_cons, List.map_nil, List.mem_cons, List.not_mem_nil,
        or_false] at hname
      -- the four names, of which the last is read as a text
      rcases hname with rfl | rfl | rfl | rfl
      · exact number_numberOr hmet.width
      · exact number_numberOr hmet.height
      · exact number_numberOr hmet.resolution
      · show Json.string (Text.ofString e.name) = _
        rw [Encoding.ofString_name he]
        unfold textOr
        cases hy : Json.lookup? members "encoding" with
        | none => rfl
        | some y =>
          obtain ⟨text, rfl, -⟩ := hmet.encoding y hy
          rfl

/-- Settings that are made from values of all names have exactly these values. -/
theorem members_of_ofMembers (h : ofMembers library members = .ok s) (hkeys : members.map (·.1) = names) :
    s.members = members := by
  refine Association.ext_get? hkeys.symm nodup_names fun name hname => ?_
  obtain ⟨y, hy⟩ : ∃ y, Json.lookup? members name = some y :=
    Association.exists_get?_of_mem (hkeys.symm ▸ hname)
  refine (lookup?_members s hname).trans (.trans ?_ hy.symm)
  rw [value_of_ofMembers h hname, hy]
  rfl

/-! ## One time after the other -/

theorem isAccepted_of_merged (h : s.merged library overrides = .ok t) : t.IsAccepted library := by
  unfold merged at h
  split at h
  · cases h
  · exact isAccepted_of_ofMembers h

theorem members_of_merged (hnames : ∀ m ∈ overrides, m.1 ∈ names)
    (h : s.merged library overrides = .ok t) : t.members = combined s overrides := by
  rw [merged_eq library s hnames] at h
  exact members_of_ofMembers h (names_combined s overrides)

/-- Accepted settings are made by any values that are combined to theirs. -/
theorem merged_of_combined (ht : t.IsAccepted library) (hnames : ∀ m ∈ overrides, m.1 ∈ names)
    (h : combined s overrides = t.members) : s.merged library overrides = .ok t := by
  rw [merged_eq library s hnames, h]
  exact ofMembers_members ht

/-- Values that are given after others count before these. -/
theorem combined_append (h : t.members = combined s overrides) :
    combined t more = combined s (overrides ++ more) := by
  refine List.map_congr_left fun name hname => ?_
  have hvalue : some (t.value name) = some ((lastGiven? overrides name).getD (s.value name)) := by
    rw [← lookup?_members t hname, h, lookup?_combined s overrides hname]
  rw [Option.some.inj hvalue, lastGiven?_append]
  cases lastGiven? more name <;> rfl

/-- Overrides that say nothing change nothing. -/
theorem combined_of_null (s : Settings) (h : ∀ m ∈ overrides, m.2 = .null) :
    combined s overrides = s.members := by
  refine Association.ext_get? (names_combined s overrides) ?_ fun name hname => ?_
  · rw [names_combined]
    exact nodup_names
  · rw [names_combined] at hname
    refine (lookup?_combined s overrides hname).trans (.trans ?_ (lookup?_members s hname).symm)
    rw [lastGiven?_of_null h]
    rfl

/-- Accepted settings stay what they are if nothing is given. -/
theorem merged_of_null (hs : s.IsAccepted library) (hnames : ∀ m ∈ overrides, m.1 ∈ names)
    (h : ∀ m ∈ overrides, m.2 = .null) : s.merged library overrides = .ok s :=
  merged_of_combined hs hnames (combined_of_null s h)

/-- However often other values take their places, the last ones count. -/
theorem members_of_foldlM {sets : List (List (Text × Json))}
    (hnames : ∀ o ∈ sets, ∀ m ∈ o, m.1 ∈ names) (hs : s.IsAccepted library)
    (h : sets.foldlM (merged library) s = .ok t) : t.IsAccepted library ∧ t.members = combined s sets.flatten := by
  induction sets generalizing s with
  | nil =>
    cases h
    exact ⟨hs, (combined_of_null _ (List.forall_mem_nil _)).symm⟩
  | cons o sets ih =>
    obtain ⟨hfirst, hrest⟩ := List.forall_mem_cons.1 hnames
    rw [List.foldlM_cons] at h
    obtain ⟨u, hu, h⟩ := Except.bind_eq_ok.1 h
    obtain ⟨ht, hmembers⟩ := ih hrest (isAccepted_of_merged hu) h
    exact ⟨ht, hmembers.trans (combined_append (members_of_merged hfirst hu))⟩

theorem combined_lastOf (s : Settings) (overrides : List (Text × Json)) :
    combined s (lastOf overrides) = combined s overrides :=
  List.map_congr_left fun _ hname => by rw [lastGiven?_lastOf hname]

theorem mem_names_of_mem_lastOf {m : Text × Json} (h : m ∈ lastOf overrides) : m.1 ∈ names := by
  obtain ⟨name, hname, rfl⟩ := List.mem_map.1 h
  exact hname

/-- Other values that are refused may be left out. -/
theorem exists_foldlM_of_tried (library : Codec.Library) (s : Settings) (sets : List (List (Text × Json))) :
    ∃ kept, List.Sublist kept sets ∧ kept.foldlM (merged library) s = .ok (sets.foldl (tried library) s) := by
  -- induction on the sets: those that are refused are left out
  induction sets generalizing s with
  | nil => exact ⟨[], .slnil, rfl⟩
  | cons o sets ih =>
    cases ho : s.merged library o with
    | error x =>
      have htried : s.tried library o = s := by rw [tried, ho]
      obtain ⟨kept, hkept, hfold⟩ := ih s
      exact ⟨kept, .cons o hkept, by rw [List.foldl_cons, htried, hfold]⟩
    | ok t =>
      have htried : s.tried library o = t := by rw [tried, ho]
      obtain ⟨kept, hkept, hfold⟩ := ih t
      refine ⟨o :: kept, .cons_cons o hkept, ?_⟩
      rw [List.foldlM_cons, ho, List.foldl_cons, htried, ← hfold]
      rfl

/-- Values are given for some of the names any number of times, to settings that were made from members.
If none is refused, the same comes of giving the last value for each name once; each of the other names
keeps its member, or else its usual value. If nothing is given, the settings stay as they are. Values are
refused exactly if no settings can be made of them together with the others, and then the settings at
hand are those before: what comes of all is what comes of those that were not refused. -/
theorem foldlM_merged (hs : ofMembers library members = .ok s) {sets : List (List (Text × Json))}
    (hnames : ∀ o ∈ sets, ∀ m ∈ o, m.1 ∈ names) :
    (∀ t, sets.foldlM (merged library) s = .ok t →
      s.merged library (lastOf sets.flatten) = .ok t ∧
        ∀ name ∈ names, t.value name = (lastGiven? sets.flatten name).getD
          ((Json.lookup? members name).getD (value {} name))) ∧
      (∀ o ∈ sets, (∀ m ∈ o, m.2 = .null) → s.merged library o = .ok s) ∧
      (∀ o ∈ sets, s.merged library o = ofMembers library (combined s o)) ∧
      ∃ kept, List.Sublist kept sets ∧ kept.foldlM (merged library) s = .ok (sets.foldl (tried library) s) := by
  have haccepted := isAccepted_of_ofMembers hs
  refine ⟨fun t ht => ?_, fun o ho => merged_of_null haccepted (hnames o ho),
    fun o ho => merged_eq library s (hnames o ho), exists_foldlM_of_tried library s sets⟩
  obtain ⟨htaccepted, hmembers⟩ := members_of_foldlM hnames haccepted ht
  refine ⟨?_, fun name hname => ?_⟩
  · exact merged_of_combined htaccepted (fun _ => mem_names_of_mem_lastOf)
      ((combined_lastOf s _).trans hmembers.symm)
  · have hvalue : some (t.value name) = some ((lastGiven? sets.flatten name).getD (s.value name)) := by
      rw [← lookup?_members t hname, hmembers, lookup?_combined s _ hname]
    rw [Option.some.inj hvalue, value_of_ofMembers hs hname]

/-- A width is an integer, then another integer, and then none; a resolution that is no integer is kept. -/
theorem foldlM_merged_kinds :
    let members : List (Text × Json) := [("width_mm", .int 57)]
    let sets : List (List (Text × Json)) :=
      [[("width_mm", .int 80), ("dpmm", .float 8.0)], [("width_mm", .float 57.0), ("dpmm", .null)]]
    let s : Settings := { width := .int 57 }
    let t : Settings := { width := .float 57.0, resolution := .float 8.0 }
    ofMembers .standard members = .ok s ∧ (∀ o ∈ sets, ∀ m ∈ o, m.1 ∈ names) ∧
      sets.foldlM (merged .standard) s = .ok t ∧ s.merged .standard (lastOf sets.flatten) = .ok t := by
  intro members sets s t
  have hnames : ∀ o ∈ sets, ∀ m ∈ o, m.1 ∈ names := by decide
  have hs : ofMembers .standard members = .ok s := rfl
  have ht : t.IsAccepted .standard :=
    ⟨.inr (by decide), .inr (by decide), by decide, by decide,
      ⟨.standard, Encoding.ofName_standard _⟩⟩
  have hu : { t with width := .int 80 }.IsAccepted .standard := { ht with width := .inr (by decide) }
  have hfold : sets.foldlM (merged .standard) s = .ok t := by
    have hfirst := merged_of_combined (s := s) hu (hnames _ List.mem_cons_self) rfl
    have hsecond := merged_of_combined ht (hnames _ (List.mem_cons_of_mem _ List.mem_cons_self)) rfl
    rw [List.foldlM_cons]
    refine Except.bind_eq_ok.2 ⟨_, hfirst, ?_⟩
    rw [List.foldlM_cons]
    exact Except.bind_eq_ok.2 ⟨_, hsecond, rfl⟩
  exact ⟨hs, hnames, hfold, ((foldlM_merged hs hnames).1 t hfold).1⟩

end Settings

end LabelPress
