import LabelPress.Charset.Idna
import LabelPress.Proofs.Number.Order
import LabelPress.Proofs.Schema.Met
import LabelPress.Proofs.Text.Whole
import LabelPress.Settings

/-!
# Accepted settings

Settings are accepted for the first time when they are made from named values, and once more when
other values take the place of some of these. Both times the whole is checked, so that the same
settings are accepted by either way, and these are exactly the following (`Settings.accepted_iff`):

* each side of the page is more than nothing, or no number;
* the resolution is that of a printer, as an integer or not;
* the encoding has a name and can be used, whatever codecs the library has.

A side that is no number is not refused: it is compared with nothing, and does not compare. But for
such sides accepted settings are `Settings.IsUsable`.
-/

namespace LabelPress

namespace Encoding

/-- The name of an encoding is the one by which it was asked for. -/
theorem ofString_name {library : Codec.Library} {name : Text} {e : Encoding}
    (h : ofName library name = .ok e) : Text.ofString e.name = name := by
  unfold ofName at h
  split at h
  · cases h
  · next s hs =>
    split at h
    · cases h
    · obtain ⟨codec, -, rfl⟩ := Except.map_eq_ok h
      exact (Text.eq_of_string? hs).symm

end Encoding

namespace Settings

/-- Settings with which a label can be drawn, if these are the codecs there are. -/
structure IsUsable (library : Codec.Library) (s : Settings) : Prop where
  width : Number.lt (.int 0) s.width = true
  height : Number.lt (.int 0) s.height = true
  resolution : resolutions.any s.resolution.same = true
  named : s.encoding ≠ ""
  encoding : ∃ e, Encoding.ofName library s.encoding = .ok e

/-- What passes for a side of the page. -/
def IsSide (n : Number) : Prop :=
  n.isNaN = true ∨ Number.lt (.int 0) n = true

/-- Settings that are accepted wherever they come from. A side need not be a number, and the name of
the codec has to be one that the library knows. -/
structure IsAccepted (library : Codec.Library) (s : Settings) : Prop where
  width : IsSide s.width
  height : IsSide s.height
  resolution : resolutions.any s.resolution.same = true
  named : s.encoding ≠ ""
  encoding : ∃ e, Encoding.ofName library s.encoding = .ok e

/-- What can be used are settings that are accepted and whose sides are numbers at all. -/
theorem isUsable_iff {library : Codec.Library} {s : Settings} :
    s.IsUsable library ↔ s.IsAccepted library ∧ s.width.isNaN = false ∧ s.height.isNaN = false := by
  have hside {n : Number} : Number.lt (.int 0) n = true ↔ IsSide n ∧ n.isNaN = false := by
    unfold IsSide
    cases hn : n.isNaN with
    | true => simp [Number.lt_eq_false_of_isNaN hn]
    | false => simp
  constructor
  · intro h
    obtain ⟨hwidth, hw⟩ := hside.1 h.width
    obtain ⟨hheight, hh⟩ := hside.1 h.height
    exact ⟨⟨hwidth, hheight, h.resolution, h.named, h.encoding⟩, hw, hh⟩
  · rintro ⟨h, hw, hh⟩
    exact ⟨hside.2 ⟨h.width, hw⟩, hside.2 ⟨h.height, hh⟩, h.resolution, h.named, h.encoding⟩

/-! ## Single values -/

variable {p : Schema.Position} {y : Json}

/-- A length is accepted if it is a number and one that a side may have. -/
theorem report_length (hp : 2 ≤ p.depth) :
    Schema.report p true lengthSchema y = .done ↔ ∃ n, y = .number n ∧ IsSide n := by
  unfold lengthSchema
  rw [Schema.report_all hp]
  simp only [List.forall_mem_cons, List.not_mem_nil, false_imp_iff, implies_true, and_true,
    Schema.report_type, Schema.report_limit]
  cases y with
  | number n =>
    have hzero : (Number.int 0).isNaN = false := rfl
    have hholds : Limit.holds ⟨.value, .above, .int 0, .number (.int 0)⟩ (.number n) =
        !n.le (.int 0) := rfl
    rw [hholds, Bool.not_eq_true', Number.le_eq_false_iff, hzero]
    simp [Kind.holds, IsSide]
  | _ => simp [Kind.holds]

/-- A resolution is one of the four. -/
theorem report_resolution (hp : 2 ≤ p.depth) :
    Schema.report p true (.all [.enum (resolutions.map .number)]) y = .done ↔
      ∃ n, y = .number n ∧ resolutions.any n.same = true := by
  rw [Schema.report_all hp, List.forall_mem_singleton, Schema.report_enum, List.any_map]
  cases y with
  | number n =>
    -- no resolution of a printer is no number, so the numbers have to be equal
    have hsame : (Json.number n).same ∘ Json.number = fun k => n.same k || (n.isNaN && k.isNaN) := by
      funext k
      simp [Json.same]
    simp [hsame, resolutions, Number.isNaN]
  | _ => simp [Json.same, resolutions]

/-- The name of a codec is a text that is not empty. -/
theorem report_encoding (hp : 2 ≤ p.depth) :
    Schema.report p true (.all [.type [.string],
      .limit { measure := .length, relation := .atLeast, bound := .int 1 }]) y = .done ↔
        ∃ t, y = .string t ∧ t ≠ .empty := by
  rw [Schema.report_all hp]
  simp only [List.forall_mem_cons, List.not_mem_nil, false_imp_iff, implies_true, and_true,
    Schema.report_type, Schema.report_limit]
  cases y with
  | string t =>
    have hholds : Limit.holds ⟨.length, .atLeast, .int 1, .number (.int 1)⟩ (.string t) =
        !(Number.int t.length).lt (.int 1) := rfl
    have hlong : ¬ (t.length : Int) < 1 ↔ t ≠ .empty := by
      have hempty : t = .empty ↔ t.length = 0 := by
        cases t
        simp [Text.length, Text.empty]
      rw [Ne, hempty]
      omega
    rw [hholds, Number.lt_int, Bool.not_eq_true', decide_eq_false_iff_not, hlong]
    simp [Kind.holds]
  | _ => simp [Kind.holds]

/-! ## All values -/

/-- What named values have to meet: there are no other names, and each value that is given is one that
the settings can have. -/
structure Meets (members : List (Text × Json)) : Prop where
  names : ∀ m ∈ members, m.1 ∈ fields.map (·.1)
  width : ∀ y, Json.lookup? members "width_mm" = some y → ∃ n, y = .number n ∧ IsSide n
  height : ∀ y, Json.lookup? members "height_mm" = some y → ∃ n, y = .number n ∧ IsSide n
  resolution : ∀ y, Json.lookup? members "dpmm" = some y →
    ∃ n, y = .number n ∧ resolutions.any n.same = true
  encoding : ∀ y, Json.lookup? members "encoding" = some y → ∃ t, y = .string t ∧ t ≠ .empty

variable {library : Codec.Library} {members : List (Text × Json)} {s : Settings}

/-- The schema is met by members each of which is missing or of its own kind, with no others among
them. -/
theorem check_eq_none : schema.check (.object members) = none ↔ Meets members := by
  have hobject : Kind.holds .object (.object members) = true := rfl
  unfold Schema.check schema
  rw [Report.first?_eq_none, Schema.report_all (by decide)]
  simp (disch := decide) only [List.forall_mem_cons, List.not_mem_nil, false_imp_iff, implies_true,
    and_true, Schema.report_type, Schema.report_only, Schema.report_properties, List.any_cons,
    hobject, Bool.true_or, true_and, fields, report_length, report_resolution, report_encoding]
  exact ⟨fun ⟨hnames, hw, hh, hr, he⟩ => ⟨hnames, hw, hh, hr, he⟩,
    fun h => ⟨h.names, h.width, h.height, h.resolution, h.encoding⟩⟩

/-- A number that is read or usual has what both have. -/
theorem of_numberOr {P : Number → Prop} {name : Text} {usual : Number} (husual : P usual)
    (h : ∀ y, Json.lookup? members name = some y → ∃ n, y = .number n ∧ P n) :
    P (numberOr members name usual) := by
  unfold numberOr
  cases hy : Json.lookup? members name with
  | none => exact husual
  | some y =>
    obtain ⟨n, rfl, hn⟩ := h y hy
    exact hn

/-- Likewise for a text. -/
theorem of_textOr {P : Text → Prop} {name usual : Text} (husual : P usual)
    (h : ∀ y, Json.lookup? members name = some y → ∃ t, y = .string t ∧ P t) :
    P (textOr members name usual) := by
  unfold textOr
  cases hy : Json.lookup? members name with
  | none => exact husual
  | some y =>
    obtain ⟨t, rfl, ht⟩ := h y hy
    exact ht

/-- Whatever values they are made from, settings are accepted. -/
theorem isAccepted_of_ofMembers (h : ofMembers library members = .ok s) :
    s.IsAccepted library := by
  unfold ofMembers at h
  split at h
  · cases h
  · next hcheck =>
    -- what the schema leaves open is the name of the codec, which is looked up afterwards
    have hmet := check_eq_none.1 hcheck
    simp only at h
    split at h
    · cases h
    · next e he =>
      cases h
      have hname := Encoding.ofString_name he
      refine ⟨?_, ?_, ?_, fun hempty => ?_, ⟨e, ?_⟩⟩
      · exact of_numberOr (.inr (by decide)) hmet.width
      · exact of_numberOr (.inr (by decide)) hmet.height
      · exact of_numberOr (P := fun n => resolutions.any n.same = true) (by decide) hmet.resolution
      · have hnamed : textOr members "encoding" "utf-8" ≠ .empty :=
          of_textOr (by decide) hmet.encoding
        exact hnamed (hname.symm.trans (congrArg Text.ofString hempty))
      · rw [hname]
        exact he

/-- The members that accepted settings are written as meet the schema. -/
theorem meets_members (h : s.IsAccepted library) : Meets s.members where
  names m hm := by
    simp only [members, List.mem_cons, List.not_mem_nil, or_false] at hm
    rcases hm with rfl | rfl | rfl | rfl <;> simp [fields]
  width y hy := by
    have hfound : some (Json.number s.width) = some y := hy
    exact ⟨_, (Option.some.inj hfound).symm, h.width⟩
  height y hy := by
    have hfound : some (Json.number s.height) = some y := hy
    exact ⟨_, (Option.some.inj hfound).symm, h.height⟩
  resolution y hy := by
    have hfound : some (Json.number s.resolution) = some y := hy
    exact ⟨_, (Option.some.inj hfound).symm, h.resolution⟩
  encoding y hy := by
    have hfound : some (Json.string s.encoding) = some y := hy
    refine ⟨_, (Option.some.inj hfound).symm, fun hempty => h.named ?_⟩
    exact String.toList_inj.1 (Text.ofChars_injective hempty)

/-- Accepted settings are made from their own values again. -/
theorem ofMembers_members (h : s.IsAccepted library) : ofMembers library s.members = .ok s := by
  obtain ⟨e, he⟩ := h.encoding
  have hname : e.name = s.encoding :=
    String.toList_inj.1 (Text.ofChars_injective (Encoding.ofString_name he))
  have hencoding : textOr s.members "encoding" "utf-8" = s.encoding := rfl
  unfold ofMembers
  rw [check_eq_none.2 (meets_members h)]
  simp only [hencoding, he, hname]
  rfl

/-- The accepted settings, with any library of codecs. They are exactly those that named values can
make, and exactly those that other settings can become with other values for some names. The resolution
is that of a printer and the encoding is one that can be used, and each side of the page is more than
nothing or is no number. So accepted settings are of use if neither side is no number, and only then. -/
theorem accepted_iff (library : Codec.Library) (s : Settings) :
    ((∃ data, ofJson library data = .ok s) ↔ s.IsAccepted library) ∧
      ((∃ (t : Settings) (overrides : List (Text × Json)), t.merged library overrides = .ok s) ↔
        s.IsAccepted library) ∧
      (s.IsUsable library ↔ s.IsAccepted library ∧ s.width.isNaN = false ∧ s.height.isNaN = false) := by
  refine ⟨⟨?_, fun h => ⟨s.toJson, ofMembers_members h⟩⟩,
    ⟨?_, fun h => ⟨s, [], ofMembers_members h⟩⟩, isUsable_iff⟩
  · rintro ⟨data, h⟩
    -- nothing but an object makes settings
    cases data with
    | object members => exact isAccepted_of_ofMembers h
    | _ => cases h
  · rintro ⟨t, overrides, h⟩
    unfold merged at h
    split at h
    · cases h
    · exact isAccepted_of_ofMembers h

/-- A width that is no number is accepted, though it is not more than nothing. -/
theorem width_nan :
    let x : Float := 0.0 / 0.0
    ∃ s, ofJson .standard (.object [("width_mm", .float x)]) = .ok s ∧
      ¬ Number.lt (.int 0) s.width = true ∧ ¬ s.IsUsable .standard := by
  have hless : ¬ Number.lt (.int 0) (.float (0.0 / 0.0)) = true := by decide
  exact ⟨_, rfl, hless, fun h => hless h.width⟩

end Settings

end LabelPress
