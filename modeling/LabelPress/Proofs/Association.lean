/-!
# Values under keys

The members of an object and the files of a tree are lists of keys with their values. Setting the value
of a key changes what is found under this key (`Association.get?_set_self`) and under no other
(`Association.get?_set_of_ne`). Lists with the same keys are equal if the same is found in them
(`Association.ext_get?`).
-/

namespace LabelPress.Association

variable {K V : Type} [BEq K]

/-- The first value under a key. -/
def get? (pairs : List (K × V)) (k : K) : Option V :=
  (pairs.find? (·.1 == k)).map (·.2)

/-- The pairs with the value of a key set: in its place if it is there, at the end if it is new. -/
def set (pairs : List (K × V)) (k : K) (v : V) : List (K × V) :=
  if pairs.any (·.1 == k) then pairs.map fun p => if p.1 == k then (k, v) else p
  else pairs ++ [(k, v)]

variable [LawfulBEq K] {pairs others : List (K × V)} {p : K × V} {k j : K}

theorem get?_cons_self (p : K × V) (pairs : List (K × V)) : get? (p :: pairs) p.1 = some p.2 := by
  simp [get?]

theorem get?_cons_of_ne (h : p.1 ≠ k) (pairs : List (K × V)) : get? (p :: pairs) k = get? pairs k := by
  simp [get?, h]

/-- A key that is not among the first pairs is looked up among the others. -/
theorem get?_append_of_notMem (h : k ∉ pairs.map (·.1)) (others : List (K × V)) :
    get? (pairs ++ others) k = get? others k := by
  have hnone : pairs.find? (·.1 == k) = none := by
    rw [List.find?_eq_none]
    exact fun q hq hk => h (List.mem_map.2 ⟨q, hq, beq_iff_eq.1 hk⟩)
  rw [get?, List.find?_append, hnone, Option.none_or, get?]

/-- A key that is there has a value. -/
theorem exists_get?_of_mem (h : k ∈ pairs.map (·.1)) : ∃ v, get? pairs k = some v := by
  obtain ⟨q, hq, hk⟩ := List.mem_map.1 h
  unfold get?
  cases hfind : pairs.find? (·.1 == k) with
  | none => exact absurd (beq_iff_eq.2 hk) (List.find?_eq_none.1 hfind q hq)
  | some r => exact ⟨r.2, rfl⟩

/-- What is found under keys with a value each. -/
theorem get?_map_of_mem {keys : List K} (h : k ∈ keys) (f : K → V) :
    get? (keys.map fun j => (j, f j)) k = some (f k) := by
  induction keys with
  | nil => cases h
  | cons j keys ih =>
    rw [List.map_cons]
    by_cases hj : j = k
    · subst hj
      exact get?_cons_self _ _
    · rw [get?_cons_of_ne hj]
      exact ih ((List.mem_cons.1 h).resolve_left (Ne.symm hj))

/-! ## Setting -/

/-- A key that is there keeps its place. -/
theorem set_of_mem (h : k ∈ pairs.map (·.1)) (v : V) :
    set pairs k v = pairs.map fun p => if p.1 == k then (k, v) else p := by
  obtain ⟨q, hq, hk⟩ := List.mem_map.1 h
  exact if_pos (List.any_eq_true.2 ⟨q, hq, by simpa using hk⟩)

/-- A new key comes last. -/
theorem set_of_notMem (h : k ∉ pairs.map (·.1)) (v : V) : set pairs k v = pairs ++ [(k, v)] := by
  refine if_neg fun hany => ?_
  obtain ⟨q, hq, hk⟩ := List.any_eq_true.1 hany
  exact h (List.mem_map.2 ⟨q, hq, beq_iff_eq.1 hk⟩)

/-- What was set is found. -/
theorem get?_set_self (pairs : List (K × V)) (k : K) (v : V) : get? (set pairs k v) k = some v := by
  by_cases hmem : k ∈ pairs.map (·.1)
  · rw [set_of_mem hmem]
    -- the first pair with the key is the one that is found
    induction pairs with
    | nil => cases hmem
    | cons p ps ih =>
      rw [List.map_cons]
      by_cases hp : p.1 = k
      · rw [if_pos (beq_iff_eq.2 hp)]
        exact get?_cons_self (k, v) _
      · rw [if_neg (by simpa using hp), get?_cons_of_ne hp]
        exact ih ((List.mem_cons.1 hmem).resolve_left (Ne.symm hp))
  · rw [set_of_notMem hmem, get?_append_of_notMem hmem]
    exact get?_cons_self (k, v) []

/-- Nothing else is changed. -/
theorem get?_set_of_ne (h : k ≠ j) (pairs : List (K × V)) (v : V) :
    get? (set pairs k v) j = get? pairs j := by
  by_cases hmem : k ∈ pairs.map (·.1)
  · -- the key keeps its place, so the pairs are gone through one by one
    rw [set_of_mem hmem]
    clear hmem
    induction pairs with
    | nil => rfl
    | cons p ps ih =>
      rw [List.map_cons]
      by_cases hp : p.1 = k
      · rw [if_pos (beq_iff_eq.2 hp), get?_cons_of_ne h, get?_cons_of_ne (hp ▸ h), ih]
      · rw [if_neg (by simpa using hp)]
        by_cases hj : p.1 = j
        · subst hj
          rw [get?_cons_self, get?_cons_self]
        · rw [get?_cons_of_ne hj, get?_cons_of_ne hj, ih]
  · rw [set_of_notMem hmem, get?, List.find?_append, List.find?_cons_of_neg (by simpa using h),
      List.find?_nil, Option.or_none, get?]

/-- A key that is there stays where it is. -/
theorem keys_set (h : k ∈ pairs.map (·.1)) (v : V) : (set pairs k v).map (·.1) = pairs.map (·.1) := by
  rw [set_of_mem h, List.map_map]
  refine List.map_congr_left fun q _ => ?_
  by_cases hq : q.1 = k
  · simp [hq]
  · simp [hq]

/-- Lists with the same keys, each standing there once, are equal if the same is found in them. -/
theorem ext_get? (hkeys : pairs.map (·.1) = others.map (·.1)) (hnodup : (pairs.map (·.1)).Nodup)
    (h : ∀ k ∈ pairs.map (·.1), get? pairs k = get? others k) : pairs = others := by
  induction pairs generalizing others with
  | nil => exact (List.map_eq_nil_iff.1 hkeys.symm).symm
  | cons p ps ih =>
    obtain ⟨q, qs, rfl, hq, hqs⟩ := List.map_eq_cons_iff.1 hkeys.symm
    have hq : q.1 = p.1 := hq
    rw [List.map_cons, List.nodup_cons] at hnodup
    -- the first pair is found first; the others have other keys, so it is not in the way of them
    have hvalue := h p.1 List.mem_cons_self
    rw [get?_cons_self, ← hq, get?_cons_self] at hvalue
    have hrest : ps = qs := ih hqs.symm hnodup.2 fun k hk => by
      have hne : p.1 ≠ k := fun hpk => hnodup.1 (hpk ▸ hk)
      have hfound := h k (List.mem_cons_of_mem _ hk)
      rwa [get?_cons_of_ne hne, get?_cons_of_ne (hq ▸ hne)] at hfound
    rw [hrest, Prod.ext hq.symm (Option.some.inj hvalue)]

end LabelPress.Association
