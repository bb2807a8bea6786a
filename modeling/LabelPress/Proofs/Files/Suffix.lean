import LabelPress.Files.Path
import Mathlib.Data.List.Basic

/-!
# Paths with another suffix

A path with another suffix is the same path if its name has this suffix already, behind some other
characters, and only then (`Path.withSuffix?_eq_self_iff`).
-/

namespace LabelPress.Path

variable {p q : Path} {suffix : String} {name base ext : List Char}

theorem stem_ne_nil (h : name ≠ []) : stem name ≠ [] := by
  unfold stem
  simp only
  split
  · exact h
  · next hsuffix =>
    rw [Bool.or_eq_true, not_or] at hsuffix
    simpa using hsuffix.2

/-- The stem is what stands in front of the last point. -/
theorem stem_append (hbase : base ≠ []) (hext : ext ≠ []) (hpoint : '.' ∉ ext) :
    stem (base ++ '.' :: ext) = base := by
  -- the stem is looked for from the end of the name
  have hreverse : (base ++ '.' :: ext).reverse = ext.reverse ++ '.' :: base.reverse := by simp
  have hall : ∀ c ∈ ext.reverse, (c ≠ '.' : Bool) = true := by
    intro c hc
    have hne : c ≠ '.' := fun h => hpoint (h ▸ List.mem_reverse.1 hc)
    simpa using hne
  have htake : (ext.reverse ++ '.' :: base.reverse).takeWhile (· ≠ '.') = ext.reverse := by
    rw [List.takeWhile_append_of_pos hall]
    simp
  have hdrop : (ext.reverse ++ '.' :: base.reverse).drop (ext.reverse.length + 1) = base.reverse := by
    rw [← List.drop_drop, List.drop_left]
    rfl
  simp only [stem, hreverse, htake, hdrop, List.reverse_reverse]
  simp [hbase, hext]

/-- The name ends in a suffix and is more than this. -/
def HasSuffix (p : Path) (suffix : String) : Prop :=
  ∃ base, base ≠ "" ∧ p.name = base ++ suffix

theorem parts_of_name (h : p.name ≠ "") : p.parts = p.parts.dropLast ++ [p.name] := by
  unfold name at h ⊢
  cases hlast : p.parts.getLast? with
  | none => simp [hlast] at h
  | some last => simpa using (List.dropLast_append_getLast? last hlast).symm

theorem withSuffix?_eq_some_iff :
    p.withSuffix? suffix = some q ↔ p.name ≠ "" ∧
      { p with parts := p.parts.dropLast ++
          [String.ofList (stem p.name.toList ++ suffix.toList)] } = q := by
  unfold withSuffix?
  split <;> simp [*]

/-- The suffix is part of the last name, and nothing else changes. -/
theorem eq_of_withSuffix? (h : p.withSuffix? suffix = some q)
    (hlast : p.parts.getLast? = q.parts.getLast?) : q = p := by
  obtain ⟨hname, rfl⟩ := withSuffix?_eq_some_iff.1 h
  rw [List.getLast?_concat] at hlast
  have hparts := List.dropLast_append_getLast? _ hlast
  rw [hparts]

/-- A path keeps its name exactly if it has the suffix, which begins with its only point. -/
theorem withSuffix?_eq_self_iff (hsuffix : suffix.toList = '.' :: ext) (hext : ext ≠ [])
    (hpoint : '.' ∉ ext) : p.withSuffix? suffix = some p ↔ p.HasSuffix suffix := by
  rw [withSuffix?_eq_some_iff]
  constructor
  · rintro ⟨hname, hp⟩
    have hparts : p.parts.dropLast ++ [String.ofList (stem p.name.toList ++ suffix.toList)] = p.parts :=
      congrArg Path.parts hp
    -- the folders are the same, so the last names are compared
    have hnew := List.append_cancel_left (hparts.trans (parts_of_name hname))
    refine ⟨String.ofList (stem p.name.toList), fun hempty => ?_, ?_⟩
    · have hnil : stem p.name.toList = [] := by simpa using hempty
      exact stem_ne_nil (by simpa using hname) hnil
    · refine (List.singleton_inj.1 hnew).symm.trans ?_
      rw [String.ofList_append, String.ofList_toList]
  · rintro ⟨base, hbase, hname⟩
    have hstem : stem p.name.toList = base.toList := by
      rw [hname, String.toList_append, hsuffix]
      exact stem_append (by simpa using hbase) hext hpoint
    have hsome : p.name ≠ "" := by
      rw [hname]
      simp [hbase]
    refine ⟨hsome, ?_⟩
    rw [hstem, String.ofList_append, String.ofList_toList, String.ofList_toList, ← hname,
      ← parts_of_name hsome]

end LabelPress.Path
