import LabelPress.Proofs.Schema.Written

/-!
# References from schema to schema

A schema may be nothing but a reference to another one, and that again. Where such references come to
an end, they say of a value what the schema there says, with less depth left
(`Schema.Library.follow_of_refers`). Where they lead to each other without end, a check does not run on,
but finds a fault with every value (`Schema.Library.check_of_endless`).
-/

namespace LabelPress.Schema.Library

variable {l : Library} {base base' : String} {address address' : Text} {found : Json}
  {k n depth : Nat} {schema : Schema}

/-- So many references lead from an address, in the schema at another one, to closed demands. -/
inductive Refers (l : Library) : Nat → String → Text → Schema → Prop where
  | last {base base' : String} {address : Text} {found : Json}
    (hfound : l.lookup base address = .ok (base', found))
    (hclosed : (Schema.ofJson found).IsClosed) :
    Refers l 0 base address (Schema.ofJson found)
  | next {base base' : String} {address address' : Text} {found : Json} {k : Nat} {schema : Schema}
    (hfound : l.lookup base address = .ok (base', found))
    (hrefer : Schema.ofJson found = .refer address') (hrest : Refers l k base' address' schema) :
    Refers l (k + 1) base address schema

/-- Each of these addresses leads to nothing but a reference to one of them. -/
def Endless (l : Library) (among : String → Text → Prop) : Prop :=
  ∀ base address, among base address → ∃ base' address' found,
    l.lookup base address = .ok (base', found) ∧ Schema.ofJson found = .refer address' ∧
      among base' address'

/-- A reference that leads to another one takes some of the depth. -/
theorem follow_of_refer (hfound : l.lookup base address = .ok (base', found))
    (hrefer : Schema.ofJson found = .refer address') (x : Json) :
    l.follow (n + 1) depth base address x =
      if 3 ≤ depth then l.follow n (depth - 3) base' address' x else .fault .tooDeep := by
  simp only [follow, hfound, hrefer, report, Position.refer, Position.deeper]

theorem follow_of_refers (h : l.Refers k base address schema) (hn : k < n) (x : Json) :
    l.follow n depth base address x =
      if 3 * k ≤ depth then
        report { outside := .nothing, depth := depth - 3 * k } false schema x
      else .fault .tooDeep := by
  induction h generalizing n depth with
  | last hfound hclosed =>
    obtain ⟨n, rfl⟩ : ∃ m, n = m + 1 := ⟨n - 1, by omega⟩
    simp only [follow, hfound]
    rw [if_pos (by omega)]
    apply hclosed.isAlike
    rfl
  | @next _ _ _ _ _ k _ hfound hrefer _ ih =>
    obtain ⟨n, rfl⟩ : ∃ m, n = m + 1 := ⟨n - 1, by omega⟩
    have hrest : depth - 3 * (k + 1) = depth - 3 - 3 * k := by omega
    rw [follow_of_refer hfound hrefer, ih (by omega), hrest]
    by_cases hdepth : 3 * (k + 1) ≤ depth
    · rw [if_pos (by omega), if_pos (by omega), if_pos hdepth]
    · rw [if_neg hdepth]
      split
      · rw [if_neg (by omega)]
      · rfl

/-- However often addresses may be followed, the depth does not last. -/
theorem follow_of_endless {among : String → Text → Prop} (h : l.Endless among)
    (haddress : among base address) (x : Json) :
    l.follow n depth base address x = .fault .tooDeep := by
  induction n generalizing depth base address with
  | zero => rfl
  | succ n ih =>
    obtain ⟨base', address', found, hfound, hrefer, hnext⟩ := h base address haddress
    rw [follow_of_refer hfound hrefer, ih hnext, ite_self]

theorem check_of_refer (hroot : Schema.ofJson l.root = .refer address) (x : Json) :
    l.check x = (l.follow maxDepth (maxDepth - 3) l.address address x).first? := by
  simp only [check, hroot, report, Position.refer, Position.deeper]
  rfl

/-- A schema that refers to closed demands says what they say. -/
theorem check_of_refers (hroot : Schema.ofJson l.root = .refer address)
    (h : l.Refers k l.address address schema) (hk : 3 * (k + 1) ≤ maxDepth) (x : Json) :
    l.check x =
      (report { outside := .nothing, depth := maxDepth - 3 * (k + 1) } false schema x).first? := by
  have hrest : maxDepth - 3 - 3 * k = maxDepth - 3 * (k + 1) := by omega
  rw [check_of_refer hroot, follow_of_refers h (by omega), if_pos (by omega), hrest]

theorem check_of_endless {among : String → Text → Prop} (h : l.Endless among)
    (hroot : Schema.ofJson l.root = .refer address) (haddress : among l.address address) (x : Json) :
    l.check x = some (.fault .tooDeep) := by
  rw [check_of_refer hroot, follow_of_endless h haddress]
  rfl

/-- A reference to the schema that it is itself. -/
theorem standard_itself (x : Json) :
    Validator.standard (.object [("$ref", .string "#")]) x = some (.fault .tooDeep) := by
  let l : Library := ⟨.object [("$ref", .string "#")], ""⟩
  have hendless : l.Endless fun base address => base = "" ∧ address = "#" := by
    rintro _ _ ⟨rfl, rfl⟩
    exact ⟨"", "#", l.root, rfl, rfl, rfl, rfl⟩
  exact check_of_endless hendless rfl ⟨rfl, rfl⟩ x

end LabelPress.Schema.Library
