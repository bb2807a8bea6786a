import LabelPress.Schema.Check

/-!
# Values that meet a schema

A report is empty if everything that it is made of is, and only then. For each kind of demand that
settings and recorded drawings have to meet, one lemma says what that is, from `report_all` to
`report_items`.

Of the demands that are `Schema.IsPlain` every value can be judged: what is found first, if anything
is, lies in the value and not in the schema (`Schema.IsPlain.isDecided`).
-/

namespace LabelPress

namespace Report

variable {r : Report} {next : Unit → Report}

theorem append_eq_done : r.append next = .done ↔ r = .done ∧ next () = .done := by
  cases r <;> simp [append]

theorem under_eq_done {step : Json} : r.under step = .done ↔ r = .done := by
  cases r <;> simp [under]

theorem demand_eq_done {condition : Bool} {c : Complaint} :
    demand condition c = .done ↔ condition = true := by
  cases condition <;> simp [demand]

theorem first?_eq_none : r.first? = none ↔ r = .done := by
  cases r <;> simp [first?]

/-- A check of every entry finds nothing exactly when it finds nothing at any entry. -/
theorem each_eq_done {A : Type} {f : A → Report} {as : List A} :
    each f as = .done ↔ ∀ a ∈ as, f a = .done := by
  induction as with
  | nil => simp [each]
  | cons a as ih => rw [each, append_eq_done, ih, List.forall_mem_cons]

/-- The numbering of the entries does not matter to a check that does not ask for it. -/
theorem eachFrom_eq_done {A : Type} {f : Nat → A → Report} {as : List A} {P : A → Prop}
    (h : ∀ i a, f i a = .done ↔ P a) (i : Nat) : eachFrom f i as = .done ↔ ∀ a ∈ as, P a := by
  induction as generalizing i with
  | nil => simp [eachFrom]
  | cons a as ih =>
    rw [eachFrom, append_eq_done, h i a, ih, List.forall_mem_cons]

/-- What is found first, if anything is, is no fault of the schema. -/
def IsDecided (r : Report) : Prop :=
  ∀ f, r.first? ≠ some (.fault f)

theorem isDecided_done : IsDecided .done := by
  intro f h
  cases h

theorem isDecided_demand (condition : Bool) (c : Complaint) : (demand condition c).IsDecided := by
  intro f h
  cases condition <;> cases h

/-- Two checks that come to an end come to an end in a row. -/
theorem IsDecided.append (hr : r.IsDecided) (hnext : (next ()).IsDecided) :
    (r.append next).IsDecided := by
  intro f h
  rw [first?_append] at h
  cases hfirst : r.first? with
  | none =>
    rw [hfirst, Option.none_or] at h
    exact hnext f h
  | some x =>
    rw [hfirst, Option.some_or] at h
    exact hr f (hfirst.trans h)

theorem IsDecided.under (hr : r.IsDecided) (step : Json) : (r.under step).IsDecided := by
  intro f h
  cases r with
  | done => cases h
  | found v rest => cases h
  | fault g => exact hr g rfl

/-- A check of every entry comes to an end if it does at every entry. -/
theorem isDecided_each {A : Type} {f : A → Report} {as : List A} (h : ∀ a ∈ as, (f a).IsDecided) :
    (each f as).IsDecided := by
  induction as with
  | nil => exact isDecided_done
  | cons a as ih =>
    rw [List.forall_mem_cons] at h
    exact h.1.append (ih h.2)

theorem isDecided_eachFrom {A : Type} {f : Nat → A → Report} {as : List A}
    (h : ∀ i, ∀ a ∈ as, (f i a).IsDecided) (i : Nat) : (eachFrom f i as).IsDecided := by
  induction as generalizing i with
  | nil => exact isDecided_done
  | cons a as ih =>
    exact (h i a List.mem_cons_self).append
      (ih (fun j b hb => h j b (List.mem_cons_of_mem a hb)) (i + 1))

end Report

namespace Schema

variable {p : Position} {entered : Bool} {x : Json}

-- The equations of so large a recursion are made once here, and not by each lemma for itself.
attribute [local simp] report

/-- Several demands are met exactly when each of them is. -/
theorem reportAll_eq_done {demands : List Schema} :
    reportAll p demands x = .done ↔ ∀ d ∈ demands, report p true d x = .done := by
  induction demands with
  | nil => simp [reportAll]
  | cons d ds ih => rw [reportAll, Report.append_eq_done, ih, List.forall_mem_cons]

/-- Several demands take two steps of the depth. -/
theorem report_all {demands : List Schema} (hp : 2 ≤ p.depth) :
    report p entered (.all demands) x = .done ↔
      ∀ d ∈ demands, report { p with depth := p.depth - 2 } true d x = .done := by
  rw [report, Position.deeper, if_pos hp]
  exact reportAll_eq_done

theorem report_type {kinds : List Kind} {stop : Option SchemaFault} :
    report p entered (.type kinds stop) x = .done ↔ kinds.any (·.holds x) = true := by
  cases stop <;> cases h : kinds.any (·.holds x) <;> simp [h, Report.demand]

theorem report_enum {values : List Json} {shown : Json} :
    report p entered (.enum values shown) x = .done ↔ values.any x.same = true := by
  rw [report]
  exact Report.demand_eq_done

theorem report_limit {l : Limit} :
    report p entered (.limit l) x = .done ↔ l.holds x = true := by
  rw [report]
  exact Report.demand_eq_done

/-- Without patterns, the members that are not described are those with other names. -/
theorem extras_of_names (o : Outside) (names : List Text) (members : List (Text × Json)) :
    Described.extras o ⟨names, none⟩ members =
      .ok (members.filter fun m => !names.contains m.1) := by
  have hcovers (name : Text) : Described.covers o ⟨names, none⟩ name = .ok (names.contains name) := by
    have hpattern : (Described.pattern ⟨names, none⟩).isEmpty = true := rfl
    unfold Described.covers
    rw [if_pos hpattern]
    cases names.contains name <;> rfl
  have hloop (kept : List (Text × Json)) : members.filterAuxM (fun m => do
      return !(← Described.covers o ⟨names, none⟩ m.1)) kept =
        .ok ((members.filter fun m => !names.contains m.1).reverse ++ kept) := by
    -- by induction on the members, with those that were kept before
    induction members generalizing kept with
    | nil => rfl
    | cons m members ih =>
      have hstep : (m :: members).filterAuxM (fun m => do
          return !(← Described.covers o ⟨names, none⟩ m.1)) kept =
            members.filterAuxM (fun m => do return !(← Described.covers o ⟨names, none⟩ m.1))
              (if names.contains m.1 then kept else m :: kept) := by
        rw [List.filterAuxM, hcovers]
        cases names.contains m.1 <;> rfl
      rw [hstep, ih, List.filter_cons]
      cases names.contains m.1 <;> simp
  unfold Described.extras List.filterM
  rw [hloop]
  exact congrArg Except.ok (by simp)

/-- An object has members of the listed names only, or is complained about. -/
theorem report_only {names : List Text} {members : List (Text × Json)} :
    report p entered (.only ⟨names, none⟩) (.object members) = .done ↔
      ∀ m ∈ members, m.1 ∈ names := by
  rw [report, extras_of_names]
  refine Report.demand_eq_done.trans ?_
  simp [List.isEmpty_iff, List.filter_eq_nil_iff]

/-- An object has a member of every required name, or is complained about. -/
theorem report_required {names : List Text} {members : List (Text × Json)} :
    report p entered (.required (names.map .string)) (.object members) = .done ↔
      ∀ name ∈ names, ∃ y, Json.lookup? members name = some y := by
  rw [report, Report.each_eq_done, List.forall_mem_map]
  refine forall₂_congr fun name _ => ?_
  show Report.demand (members.any (·.1 == name)) _ = .done ↔ _
  rw [Report.demand_eq_done, ← Option.isSome_iff_exists, Json.lookup?, Option.isSome_map,
    List.find?_isSome, List.any_eq_true]

theorem inPart_eq_done {schema : Schema} {step : Json} {r : Report} :
    inPart schema step r = .done ↔ r = .done := by
  cases schema with
  | never => rfl
  | _ => exact Report.under_eq_done

/-- A member that is not there meets all demands on it. -/
theorem report_properties {schemas : List (Text × Schema)} :
    report p entered (.properties schemas) x = .done ↔
      ∀ m ∈ schemas, ∀ y, x.get? m.1 = some y → report p true m.2 y = .done := by
  rw [report]
  induction schemas with
  | nil => simp [reportProperties]
  | cons m schemas ih =>
    obtain ⟨name, s⟩ := m
    rw [reportProperties, Report.append_eq_done, ih, List.forall_mem_cons]
    refine and_congr_left fun _ => ?_
    cases hy : x.get? name with
    | none => simp
    | some y => simp [inPart_eq_done]

/-- An array is accepted exactly when each of its entries is. -/
theorem report_items {schema : Schema} {xs : List Json} :
    report p entered (.items schema) (.array xs) = .done ↔
      ∀ y ∈ xs, report p true schema y = .done := by
  rw [report, eachItem, List.drop_zero]
  have hitem (i : Nat) (y : Json) :
      inPart schema (.int i) (report p true schema y) = .done ↔ report p true schema y = .done :=
    inPart_eq_done
  exact Report.eachFrom_eq_done hitem 0

/-! ## Demands that can always be judged -/

/-- Demands without patterns and addresses that stand at most so deep in one another. -/
inductive IsPlain : Nat → Schema → Prop where
  | type {n : Nat} (kinds : List Kind) : IsPlain n (.type kinds)
  | enum {n : Nat} (values : List Json) (shown : Json) : IsPlain n (.enum values shown)
  | required {n : Nat} (names : List Text) : IsPlain n (.required (names.map .string))
  | properties {n : Nat} {schemas : List (Text × Schema)} (h : ∀ m ∈ schemas, IsPlain n m.2) :
    IsPlain n (.properties schemas)
  | items {n : Nat} {schema : Schema} (h : IsPlain n schema) : IsPlain n (.items schema)
  | all {n : Nat} {demands : List Schema} (h : ∀ d ∈ demands, IsPlain n d) :
    IsPlain (n + 2) (.all demands)

theorem isDecided_inPart {schema : Schema} {r : Report} (hr : r.IsDecided) (step : Json) :
    (inPart schema step r).IsDecided := by
  cases schema with
  | never => exact hr
  | _ => exact hr.under step

/-- Several demands come to an end if each of them does. -/
theorem isDecided_reportAll {demands : List Schema}
    (h : ∀ d ∈ demands, (report p true d x).IsDecided) : (reportAll p demands x).IsDecided := by
  induction demands with
  | nil => exact Report.isDecided_done
  | cons d demands ih =>
    rw [List.forall_mem_cons] at h
    rw [reportAll]
    exact h.1.append (ih h.2)

/-- The demands on the members come to an end if they do for whatever stands under the names. -/
theorem isDecided_reportProperties {schemas : List (Text × Schema)}
    (h : ∀ m ∈ schemas, ∀ y, (report p true m.2 y).IsDecided) :
    (reportProperties p schemas x).IsDecided := by
  induction schemas with
  | nil => exact Report.isDecided_done
  | cons m schemas ih =>
    obtain ⟨name, s⟩ := m
    rw [List.forall_mem_cons] at h
    rw [reportProperties]
    refine Report.IsDecided.append ?_ (ih h.2)
    cases x.get? name with
    | none => exact Report.isDecided_done
    | some y => exact isDecided_inPart (h.1 y) _

/-- As deep as a check goes, it finds no fault in such demands. -/
theorem IsPlain.isDecided {n : Nat} {schema : Schema} (h : IsPlain n schema) (hp : n ≤ p.depth)
    (entered : Bool) (x : Json) : (report p entered schema x).IsDecided := by
  -- induction on the schema, for the depth it takes is known from its form
  induction h generalizing p entered x with
  | type kinds =>
    rw [report]
    split
    · exact Report.isDecided_done
    · exact Report.isDecided_demand _ _
  | enum values shown => exact Report.isDecided_demand _ _
  | required names =>
    cases x with
    | object members =>
      rw [report]
      apply Report.isDecided_each
      intro name hname
      obtain ⟨t, -, rfl⟩ := List.mem_map.1 hname
      exact Report.isDecided_demand _ _
    | _ => exact Report.isDecided_done
  | properties _ ih =>
    rw [report]
    exact isDecided_reportProperties fun m hm y => ih m hm hp true y
  | items _ ih =>
    cases x with
    | array xs =>
      rw [report, eachItem]
      exact Report.isDecided_eachFrom (fun i y _ => isDecided_inPart (ih hp true y) _) 0
    | _ => exact Report.isDecided_done
  | @all n demands _ ih =>
    rw [report, Position.deeper, if_pos (by omega)]
    exact isDecided_reportAll fun d hd => ih d hd (by show n ≤ p.depth - 2; omega) true x

end Schema

end LabelPress
