import LabelPress.Proofs.Schema.Drawing
import LabelPress.Schema.Library
import LabelPress.Settings
import LabelPress.Surface.Recording

/-!
# Schemas that are written as JSON

A validator is given a schema as JSON. The standard one may look up patterns and addresses on the way,
but demands that have none of them rely on nothing else (`Schema.IsClosed.report_eq`). So of a value it
says what the schema says that it has read (`Schema.Validator.standard_of_isClosed`).

The two schemas of this library are of that kind. As JSON they are `Drawing.written` and
`Settings.written`, and the standard validator says of them what recordings and settings are checked for
(`Recording.validateAgainst_written`, `Settings.standard_written`).
-/

namespace LabelPress

namespace Schema

/-- Demands without patterns and addresses. -/
inductive IsClosed : Schema → Prop where
  | all {demands : List Schema} (h : ∀ d ∈ demands, IsClosed d) : IsClosed (.all demands)
  | any {choices : List Schema} (h : ∀ c ∈ choices, IsClosed c) : IsClosed (.any choices)
  | one {choices : List (Json × Schema)} (h : ∀ c ∈ choices, IsClosed c.2) : IsClosed (.one choices)
  | not (text : Json) {schema : Schema} (h : IsClosed schema) : IsClosed (.not text schema)
  | cases {condition whenMet otherwise : Schema} (hcondition : IsClosed condition)
    (hmet : IsClosed whenMet) (hother : IsClosed otherwise) :
    IsClosed (.cases condition whenMet otherwise)
  | never : IsClosed .never
  | broken (fault : SchemaFault) : IsClosed (.broken fault)
  | forKind (kind : Kind) {schema : Schema} (h : IsClosed schema) : IsClosed (.forKind kind schema)
  | type (kinds : List Kind) (stop : Option SchemaFault) : IsClosed (.type kinds stop)
  | enum (values : List Json) (shown : Json) : IsClosed (.enum values shown)
  | const (value : Json) : IsClosed (.const value)
  | limit (l : Limit) : IsClosed (.limit l)
  | multiple (divisor : Number) (shown : Json) : IsClosed (.multiple divisor shown)
  | required (names : List Json) : IsClosed (.required names)
  | properties {schemas : List (Text × Schema)} (h : ∀ m ∈ schemas, IsClosed m.2) :
    IsClosed (.properties schemas)
  | only (names : List Text) : IsClosed (.only ⟨names, none⟩)
  | others (names : List Text) {schema : Schema} (h : IsClosed schema) :
    IsClosed (.others ⟨names, none⟩ schema)
  | memberNames {schema : Schema} (h : IsClosed schema) : IsClosed (.memberNames schema)
  | whenMember (name : Text) {schema : Schema} (h : IsClosed schema) :
    IsClosed (.whenMember name schema)
  | companions (names : List Json) (other : Text) : IsClosed (.companions names other)
  | items {schema : Schema} (h : IsClosed schema) : IsClosed (.items schema)
  | leading {schemas : List Schema} (h : ∀ s ∈ schemas, IsClosed s) : IsClosed (.leading schemas)
  | itemsAfter (count : Nat) {schema : Schema} (h : IsClosed schema) :
    IsClosed (.itemsAfter count schema)
  | noneAfter (count : Nat) : IsClosed (.noneAfter count)
  | contains {schema : Schema} (h : IsClosed schema) : IsClosed (.contains schema)
  | distinct : IsClosed .distinct

/-! ## Nothing else is relied on -/

/-- A check says the same in all positions from which it may go equally deep. -/
def IsAlike (s : Schema) : Prop :=
  ∀ (p q : Position), p.depth = q.depth → ∀ (entered other : Bool) (x : Json),
    report p entered s x = report q other s x

section Alike

variable {p q : Position} {s : Schema} {schemas : List Schema}

/-- Both go down by the same depth, or not at all. -/
theorem deeper_eq {f : Position → Report} (hf : ∀ p q : Position, p.depth = q.depth → f p = f q)
    (hdepth : p.depth = q.depth) (cost : Nat) : p.deeper cost f = q.deeper cost f := by
  unfold Position.deeper
  rw [hdepth]
  split
  · apply hf
    rfl
  · rfl

theorem deeper_of_isAlike (hs : s.IsAlike) (hdepth : p.depth = q.depth) (cost : Nat) (x : Json) :
    (p.deeper cost fun p => report p false s x) = q.deeper cost fun q => report q false s x :=
  deeper_eq (fun p q h => hs p q h false false x) hdepth cost

/-- Demands in a row say the same if each of them does. The same holds for the other ways in which
schemas stand in a list. -/
theorem reportAll_of_isAlike (hs : ∀ s ∈ schemas, s.IsAlike) (hdepth : p.depth = q.depth)
    (x : Json) : reportAll p schemas x = reportAll q schemas x := by
  induction schemas with
  | nil => rfl
  | cons s schemas ih =>
    rw [List.forall_mem_cons] at hs
    rw [reportAll, reportAll, hs.1 p q hdepth true true x, ih hs.2]

theorem meetsAny_of_isAlike (hs : ∀ s ∈ schemas, s.IsAlike) (hdepth : p.depth = q.depth)
    (x : Json) : meetsAny p schemas x = meetsAny q schemas x := by
  induction schemas with
  | nil => rfl
  | cons s schemas ih =>
    rw [List.forall_mem_cons] at hs
    rw [meetsAny, meetsAny, hs.1 p q hdepth true true x, ih hs.2]

theorem met_of_isAlike {choices : List (Json × Schema)} (hs : ∀ c ∈ choices, c.2.IsAlike)
    (hdepth : p.depth = q.depth) (x : Json) : met p choices x = met q choices x := by
  induction choices with
  | nil => rfl
  | cons c choices ih =>
    rw [List.forall_mem_cons] at hs
    rw [met, met, deeper_of_isAlike hs.1 hdepth 2 x, ih hs.2]

theorem reportOne_of_isAlike {choices : List (Json × Schema)} (hs : ∀ c ∈ choices, c.2.IsAlike)
    (hdepth : p.depth = q.depth) (x : Json) : reportOne p choices x = reportOne q choices x := by
  induction choices with
  | nil => rfl
  | cons c choices ih =>
    rw [List.forall_mem_cons] at hs
    rw [reportOne, reportOne, hs.1 p q hdepth true true x, met_of_isAlike hs.2 hdepth x, ih hs.2]

theorem reportProperties_of_isAlike {members : List (Text × Schema)}
    (hs : ∀ m ∈ members, m.2.IsAlike) (hdepth : p.depth = q.depth) (x : Json) :
    reportProperties p members x = reportProperties q members x := by
  induction members with
  | nil => rfl
  | cons m members ih =>
    rw [List.forall_mem_cons] at hs
    rw [reportProperties, reportProperties, ih hs.2]
    cases x.get? m.1 with
    | none => rfl
    | some y => simp only [hs.1 p q hdepth true true y]

theorem reportLeading_of_isAlike (hs : ∀ s ∈ schemas, s.IsAlike) (hdepth : p.depth = q.depth)
    (i : Nat) (xs : List Json) : reportLeading p schemas i xs = reportLeading q schemas i xs := by
  induction schemas generalizing i xs with
  | nil => rfl
  | cons s schemas ih =>
    rw [List.forall_mem_cons] at hs
    cases xs with
    | nil => rfl
    | cons y xs => rw [reportLeading, reportLeading, hs.1 p q hdepth true true y, ih hs.2]

/-- A check does not look behind closed demands. -/
theorem IsClosed.isAlike (hs : s.IsClosed) : s.IsAlike := by
  intro p q hdepth entered other x
  -- induction on the schema; no part of a closed schema asks what is outside or where it stands
  induction hs generalizing p q entered other x with
  | never | broken | type | enum | const | limit | multiple | required | companions | noneAfter
  | distinct => rfl
  | all _ ih =>
    rw [report, report]
    exact deeper_eq (fun p q h => reportAll_of_isAlike ih h x) hdepth 2
  | any _ ih => rw [report, report, meetsAny_of_isAlike ih hdepth x]
  | one _ ih => rw [report, report, reportOne_of_isAlike ih hdepth x]
  | not text _ ih =>
    rw [report, report]
    exact deeper_eq (fun p q h => by rw [ih p q h false false x]) hdepth 1
  | cases _ _ _ ihcondition ihmet ihother =>
    rw [report, report, deeper_of_isAlike ihcondition hdepth 1 x, ihmet p q hdepth true true x,
      ihother p q hdepth true true x]
  | forKind kind _ ih => rw [report, report, ih p q hdepth true true x]
  | properties _ ih =>
    rw [report, report]
    exact reportProperties_of_isAlike ih hdepth x
  | only names =>
    cases x with
    | object members => rw [report, report, extras_of_names, extras_of_names]
    | _ => rfl
  | others names _ ih =>
    cases x with
    | object members =>
      rw [report, report, extras_of_names, extras_of_names]
      simp only [ih p q hdepth true true]
    | _ => rfl
  | memberNames _ ih => simp only [report, ih p q hdepth true true]
  | whenMember name _ ih => rw [report, report, ih p q hdepth true true x]
  | items _ ih => simp only [report, ih p q hdepth true true]
  | leading _ ih =>
    cases x with
    | array xs =>
      rw [report, report]
      exact reportLeading_of_isAlike ih hdepth 0 xs
    | _ => rfl
  | itemsAfter count _ ih => simp only [report, ih p q hdepth true true]
  | contains _ ih =>
    cases x with
    | array xs => simp only [report, deeper_of_isAlike ih hdepth 2]
    | _ => rfl

end Alike

/-- Demands that can always be judged are closed. -/
theorem IsPlain.isClosed {n : Nat} {s : Schema} (h : IsPlain n s) : s.IsClosed := by
  induction h with
  | type kinds => exact .type kinds none
  | enum values shown => exact .enum values shown
  | required names => exact .required _
  | properties _ ih => exact .properties ih
  | items _ ih => exact .items ih
  | all _ ih => exact .all ih

/-! ## The standard validator -/

/-- Closed demands are not those of a schema whose own address is of no use. -/
theorem ownAddress?_of_isClosed {members : List (Text × Json)} {fault : ValueFault}
    (hx : (ofJson (.object members)).IsClosed) : ownAddress? (.object members) ≠ .error fault := by
  intro h
  have haddress : memberAddress? members = .error fault := h
  have hreference : Json.lookup? members "$ref" = none := by
    unfold memberAddress? at haddress
    split at haddress
    · cases haddress
    · next hnone =>
      rw [Json.lookup?, Option.map_eq_none_iff, List.find?_eq_none]
      exact fun m hm hname => hnone (List.any_eq_true.2 ⟨m, hm, hname⟩)
  -- an address that cannot be read would have been a schema that is broken
  rw [ofJson, hreference] at hx
  unfold addressed at hx
  rw [haddress] at hx
  cases hx

/-- The standard validator says of every value what the schema says that it has read, if nothing in
this is to be looked up. What is no schema at all is found to be of no use in the same way. -/
theorem Validator.standard_of_isClosed {x : Json} (hx : (ofJson x).IsClosed) (y : Json) :
    Validator.standard x y = (ofJson x).check y := by
  unfold Validator.standard Library.ofJson
  cases haddress : ownAddress? x with
  | ok own =>
    have hdepth : ({ outside := Library.outside ⟨x, own.getD ""⟩, base := own.getD "" } :
        Position).depth = ({ outside := .nothing } : Position).depth := rfl
    exact congrArg Report.first? (hx.isAlike _ _ hdepth false true y)
  | error fault =>
    cases x with
    | bool b => cases haddress
    | null | number | string | array =>
      cases haddress
      rfl
    | object members => exact absurd haddress (ownAddress?_of_isClosed hx)

end Schema

/-! ## The schemas of this library -/

/-- The demands on a recorded drawing, as JSON. -/
def Drawing.written : Json := .object [
  ("$schema", .string "http://json-schema.org/draft-07/schema#"),
  ("title", .string "Recorded rendering commands"),
  ("type", .string "object"),
  ("required", .array [.string "version", .string "commands"]),
  ("properties", .object [
    ("version", .object [("type", .string "string")]),
    ("source", .object [("type", .string "string")]),
    ("commands", .object [
      ("type", .string "array"),
      ("items", .object [
        ("type", .string "object"),
        ("required", .array [.string "name", .string "args"]),
        ("properties", .object [
          ("name", .object [("enum", .array [
            .string "CreateDocument", .string "MoveCursor", .string "SetFontSize",
            .string "DrawText", .string "DrawRect", .string "DrawBarcode"])]),
          ("args", .object [("type", .string "object")])])])])])]

/-- The demands on settings, as JSON. -/
def Settings.written : Json :=
  let length : Json := .object [("type", .string "number"), ("exclusiveMinimum", .int 0)]
  .object [
    ("$schema", .string "http://json-schema.org/draft-07/schema#"),
    ("title", .string "ZPL conversion settings"),
    ("type", .string "object"),
    ("additionalProperties", .bool false),
    ("properties", .object [
      ("width_mm", length),
      ("height_mm", length),
      ("dpmm", .object [("enum", .array [.int 6, .int 8, .int 12, .int 24])]),
      ("encoding", .object [("type", .string "string"), ("minLength", .int 1)])])]

theorem Drawing.ofJson_written : Schema.ofJson written = schema := by
  rfl

theorem Settings.ofJson_written : Schema.ofJson written = schema := by
  rfl

/-- The schema of settings refers to nothing and asks for no pattern. -/
theorem Settings.isClosed_schema : schema.IsClosed := by
  have hlength : lengthSchema.IsClosed := by
    apply Schema.IsClosed.all
    simp only [List.forall_mem_cons, List.not_mem_nil, false_imp_iff, implies_true, and_true]
    exact ⟨.type _ none, .limit _⟩
  apply Schema.IsClosed.all
  simp only [List.forall_mem_cons, List.not_mem_nil, false_imp_iff, implies_true, and_true]
  refine ⟨.type _ none, .only _, .properties ?_⟩
  simp only [fields, List.forall_mem_cons, List.not_mem_nil, false_imp_iff, implies_true, and_true]
  refine ⟨hlength, hlength, .all (List.forall_mem_singleton.2 (.enum _ _)), .all ?_⟩
  simp only [List.forall_mem_cons, List.not_mem_nil, false_imp_iff, implies_true, and_true]
  exact ⟨.type _ none, .limit _⟩

/-- Validating a recording against the schema of recorded drawings as JSON is to validate it. -/
theorem Recording.validateAgainst_written (r : Recording) :
    r.validateAgainst .standard Drawing.written = r.validate := by
  have hstandard := Schema.Validator.standard_of_isClosed
    (Drawing.ofJson_written ▸ Drawing.isPlain_schema.isClosed) r.toJson
  unfold validateAgainst validate
  rw [hstandard, Drawing.ofJson_written]

/-- Settings are checked for what the standard validator finds. -/
theorem Settings.standard_written (x : Json) :
    Schema.Validator.standard written x = schema.check x := by
  rw [Schema.Validator.standard_of_isClosed (ofJson_written ▸ isClosed_schema) x, ofJson_written]

end LabelPress
