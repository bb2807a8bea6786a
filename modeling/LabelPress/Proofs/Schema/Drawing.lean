import LabelPress.Drawing.Payload
import LabelPress.Proofs.Schema.Met

/-!
# Which values are recorded drawings

`Drawing.IsDrawing` says what a recorded drawing is without a schema: an object with a version, a
source that is a text if there is one, and a list of entries, each with the name of a primitive and
arguments by name. Everything else in it may be anything.

The schema accepts these values and no others (`Drawing.check_eq_none`), and what it finds in any
other value is a violation (`Drawing.exists_violation`).
-/

namespace LabelPress

namespace Kind

theorem holds_object {x : Json} : Kind.holds .object x = true ↔ ∃ members, x = .object members := by
  cases x <;> simp [holds]

theorem holds_array {x : Json} : Kind.holds .array x = true ↔ ∃ items, x = .array items := by
  cases x <;> simp [holds]

theorem holds_string {x : Json} : Kind.holds .string x = true ↔ ∃ t, x = .string t := by
  cases x <;> simp [holds]

end Kind

/-- Only an object has members. -/
theorem Json.get?_eq_some {x y : Json} {name : Text} :
    x.get? name = some y ↔ ∃ members, x = .object members ∧ lookup? members name = some y := by
  cases x <;> simp [get?]

namespace Drawing

/-- An entry of a recorded drawing: the name of a primitive, and arguments by name. -/
def IsEntry (x : Json) : Prop :=
  ∃ (p : Primitive) (args : List (Text × Json)),
    x.get? "name" = some (.string p.name) ∧ x.get? "args" = some (.object args)

/-- A recorded drawing: a version and a list of entries. What else it holds does not matter. -/
structure IsDrawing (x : Json) : Prop where
  version : ∃ t, x.get? "version" = some (.string t)
  source : ∀ y, x.get? "source" = some y → ∃ t, y = .string t
  commands : ∃ entries, x.get? "commands" = some (.array entries) ∧ ∀ e ∈ entries, IsEntry e

variable {p : Schema.Position} {x y : Json}

/-- A name is accepted if a primitive has it. -/
theorem report_name :
    Schema.report p true (.enum (Primitive.all.map fun q => .string q.name)) y = .done ↔
      ∃ q : Primitive, y = .string q.name := by
  rw [Schema.report_enum, List.any_map, List.any_eq_true]
  constructor
  · rintro ⟨q, -, hq⟩
    cases y with
    | string t => exact ⟨q, congrArg Json.string (by simpa [Json.same] using hq)⟩
    | _ => simp [Json.same] at hq
  · rintro ⟨q, rfl⟩
    exact ⟨q, by cases q <;> decide, by simp [Json.same]⟩

/-- An entry is accepted if it is an object with the name of a primitive and an object of
arguments. -/
theorem report_entrySchema (hp : 4 ≤ p.depth) :
    Schema.report p true entrySchema x = .done ↔ IsEntry x := by
  have hdeep : 2 ≤ { p with depth := p.depth - 2 }.depth := show 2 ≤ p.depth - 2 by omega
  have hnames : [Json.string "name", .string "args"] = (["name", "args"] : List Text).map .string :=
    rfl
  unfold entrySchema
  rw [Schema.report_all (show 2 ≤ p.depth by omega), hnames]
  simp only [List.forall_mem_cons, List.not_mem_nil, false_imp_iff, implies_true, and_true,
    Schema.report_type, Schema.report_properties, Schema.report_all hdeep, report_name,
    List.any_cons, List.any_nil, Bool.or_false, Kind.holds_object]
  -- the demands are on the members by name, so the object is taken apart and put together again
  constructor
  · rintro ⟨⟨members, rfl⟩, hthere, hname, hargs⟩
    simp only [Schema.report_required, List.forall_mem_cons, List.not_mem_nil, false_imp_iff,
      implies_true, and_true] at hthere
    obtain ⟨⟨name, hfirst⟩, args, hsecond⟩ := hthere
    obtain ⟨q, rfl⟩ := hname name hfirst
    obtain ⟨ms, rfl⟩ := hargs args hsecond
    exact ⟨q, ms, hfirst, hsecond⟩
  · rintro ⟨q, args, hname, hargs⟩
    obtain ⟨members, rfl, hfirst⟩ := Json.get?_eq_some.1 hname
    simp only [Schema.report_required, List.forall_mem_cons, List.not_mem_nil, false_imp_iff,
      implies_true, and_true]
    rw [hname, hargs]
    refine ⟨⟨members, rfl⟩, ⟨⟨_, hname⟩, _, hargs⟩, ?_, ?_⟩
    · rintro y ⟨⟩
      exact ⟨q, rfl⟩
    · rintro y ⟨⟩
      exact ⟨args, rfl⟩

/-- The values that the schema accepts. -/
theorem check_eq_none : schema.check x = none ↔ IsDrawing x := by
  have hnames : [Json.string "version", .string "commands"] =
      (["version", "commands"] : List Text).map .string := rfl
  unfold Schema.check schema
  rw [Report.first?_eq_none, Schema.report_all (by decide), hnames]
  simp (disch := decide) only [List.forall_mem_cons, List.not_mem_nil, false_imp_iff, implies_true,
    and_true, Schema.report_type, Schema.report_properties, Schema.report_all, List.any_cons,
    List.any_nil, Bool.or_false, Kind.holds_object, Kind.holds_string, Kind.holds_array]
  constructor
  · rintro ⟨⟨members, rfl⟩, hthere, hversion, hsource, hcommands⟩
    simp only [Schema.report_required, List.forall_mem_cons, List.not_mem_nil, false_imp_iff,
      implies_true, and_true] at hthere
    obtain ⟨⟨version, hfirst⟩, commands, hsecond⟩ := hthere
    obtain ⟨t, rfl⟩ := hversion version hfirst
    obtain ⟨⟨entries, rfl⟩, hitems⟩ := hcommands commands hsecond
    -- that each item is an entry is said by the schema of the items
    refine ⟨⟨t, hfirst⟩, hsource, entries, hsecond, fun e he => ?_⟩
    exact (report_entrySchema (by decide)).1 (Schema.report_items.1 hitems e he)
  · rintro ⟨⟨t, hversion⟩, hsource, entries, hcommands, hentries⟩
    obtain ⟨members, rfl, hfirst⟩ := Json.get?_eq_some.1 hversion
    simp only [Schema.report_required, List.forall_mem_cons, List.not_mem_nil, false_imp_iff,
      implies_true, and_true]
    rw [hversion, hcommands]
    refine ⟨⟨members, rfl⟩, ⟨⟨_, hversion⟩, _, hcommands⟩, ?_, hsource, ?_⟩
    · rintro y ⟨⟩
      exact ⟨t, rfl⟩
    · rintro y ⟨⟩
      refine ⟨⟨entries, rfl⟩, Schema.report_items.2 fun e he => ?_⟩
      exact (report_entrySchema (by decide)).2 (hentries e he)

/-- The demands stand at most eight steps deep in one another. -/
theorem isPlain_schema : Schema.IsPlain 8 schema := by
  -- each demand alone takes two of the depth, like demands in a row
  have hone {n : Nat} {s : Schema} (h : Schema.IsPlain n s) : Schema.IsPlain (n + 2) (.all [s]) :=
    .all (List.forall_mem_singleton.2 h)
  have hentry : Schema.IsPlain 4 entrySchema := by
    apply Schema.IsPlain.all
    simp only [List.forall_mem_cons, List.not_mem_nil, false_imp_iff, implies_true, and_true]
    refine ⟨.type _, .required ["name", "args"], .properties ?_⟩
    simp only [List.forall_mem_cons, List.not_mem_nil, false_imp_iff, implies_true, and_true]
    exact ⟨hone (.enum _ _), hone (.type _)⟩
  have hcommands : Schema.IsPlain 6 (.all [.type [.array], .items entrySchema]) := by
    apply Schema.IsPlain.all
    simp only [List.forall_mem_cons, List.not_mem_nil, false_imp_iff, implies_true, and_true]
    exact ⟨.type _, .items hentry⟩
  apply Schema.IsPlain.all
  simp only [List.forall_mem_cons, List.not_mem_nil, false_imp_iff, implies_true, and_true]
  refine ⟨.type _, .required ["version", "commands"], .properties ?_⟩
  simp only [List.forall_mem_cons, List.not_mem_nil, false_imp_iff, implies_true, and_true]
  exact ⟨hone (.type _), hone (.type _), hcommands⟩

/-- What the schema finds in any other value is a violation. -/
theorem exists_violation (h : ¬ IsDrawing x) : ∃ v, schema.check x = some (.violation v) := by
  have hdecided := isPlain_schema.isDecided (p := { outside := .nothing })
    (by decide) true x
  cases hcheck : schema.check x with
  | none => exact absurd (check_eq_none.1 hcheck) h
  | some finding =>
    cases finding with
    | violation v => exact ⟨v, rfl⟩
    | fault f => exact absurd hcheck (hdecided f)

end Drawing

end LabelPress
