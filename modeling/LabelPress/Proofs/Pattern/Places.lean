import LabelPress.Pattern.Search

/-!
# Where patterns lead

A pattern leads from a place in a text to the places behind what it describes there
(`Pattern.Leads`). To try a pattern is to look for such a place from which what is to follow matches,
and the search misses none, whatever is tried first (`Pattern.tries_tryAt`). So a pattern occurs in a
text exactly if it leads from some place of it to another (`Pattern.occursIn_iff`).

That is about patterns that places alone decide (`Pattern.IsRegular`). Not among them are references
to what a group has matched, which depend on the way to a place, and patterns that give up all ways but
the first.
-/

namespace LabelPress.Pattern

/-- So many steps of a relation, one after another. -/
def Times (R : Nat → Nat → Prop) : Nat → Nat → Nat → Prop
  | 0, i, j => j = i
  | n + 1, i, j => ∃ k, R i k ∧ Times R n k j

/--
Whether a pattern leads from one place in a text to another. For patterns that are not regular this is
only an approximation.
-/
def Leads (text : Array Nat) : Pattern → Nat → Nat → Prop
  | .empty, i, j => j = i
  | .oneOf cs sense, i, j => (∃ n, text[i]? = some n ∧ cs.contains sense n) ∧ j = i + 1
  | .anchor a, i, j => a.holds text i ∧ j = i
  | .seq p q, i, j => ∃ k, Leads text p i k ∧ Leads text q k j
  | .alt p q, i, j => Leads text p i j ∨ Leads text q i j
  | .loop _ low high p, i, j =>
    ∃ n, low ≤ n ∧ (∀ m ∈ high, n ≤ m) ∧ Times (Leads text p) n i j
  | .group _ p, i, j | .atomic p, i, j => Leads text p i j
  | .again .., _, _ | .given .., _, _ => False
  | .ahead negated p, i, j => ((∃ k, Leads text p i k) ↔ negated = false) ∧ j = i
  | .behind negated distance p, i, j =>
    ((distance ≤ i ∧ ∃ k, Leads text p (i - distance) k) ↔ negated = false) ∧ j = i

/-- Patterns without references to groups that never give up a way. -/
inductive IsRegular : Pattern → Prop where
  | empty : IsRegular .empty
  | oneOf (cs : CharSet) (sense : Sense) : IsRegular (.oneOf cs sense)
  | anchor (a : Anchor) : IsRegular (.anchor a)
  | seq {p q : Pattern} (hp : IsRegular p) (hq : IsRegular q) : IsRegular (.seq p q)
  | alt {p q : Pattern} (hp : IsRegular p) (hq : IsRegular q) : IsRegular (.alt p q)
  | loop {greed : Greed} {low : Nat} {high : Option Nat} {p : Pattern} (hgreed : greed ≠ .possessive)
    (hlow : ∀ m ∈ high, low ≤ m) (hp : IsRegular p) : IsRegular (.loop greed low high p)
  | group (number : Nat) {p : Pattern} (hp : IsRegular p) : IsRegular (.group number p)
  | ahead (negated : Bool) {p : Pattern} (hp : IsRegular p) : IsRegular (.ahead negated p)
  | behind (negated : Bool) (distance : Nat) {p : Pattern} (hp : IsRegular p) :
    IsRegular (.behind negated distance p)

/--
A way of trying finds what a relation between places leads to: with anything to follow, it succeeds
exactly if that relation leads to a place from which what follows does.
-/
structure Tries (size : Nat) (body : Follow → Follow) (R : Nat → Nat → Prop) : Prop where
  within : ∀ {i j : Nat}, i ≤ size → R i j → i ≤ j ∧ j ≤ size
  isSome_iff : ∀ {follow : Follow} {F : Nat → Prop} {s : Spot}, s.place ≤ size →
    (∀ t : Spot, s.place ≤ t.place → t.place ≤ size → ((follow t).isSome ↔ F t.place)) →
    ((body follow s).isSome ↔ ∃ j, R s.place j ∧ F j)

/-! ## Repetitions -/

/-- Where a repetition leads after `count` rounds. -/
def Reach (R : Nat → Nat → Prop) (low : Nat) (high : Option Nat) (count i j : Nat) : Prop :=
  ∃ n, low ≤ count + n ∧ (∀ m ∈ high, count + n ≤ m) ∧ Times R n i j

section

variable {R : Nat → Nat → Prop} {low count size i j n : Nat} {high : Option Nat}

theorem Times.within (hR : ∀ {i j : Nat}, i ≤ size → R i j → i ≤ j ∧ j ≤ size) (hi : i ≤ size)
    (h : Times R n i j) : i ≤ j ∧ j ≤ size := by
  induction n generalizing i with
  | zero => obtain rfl : j = i := h; omega
  | succ n ih =>
    obtain ⟨k, hk, hrest⟩ := h
    obtain ⟨hle, hsize⟩ := hR hi hk
    have := ih hsize hrest
    omega

/-- Of several steps those at the start that do not move can be left out. -/
theorem Times.move (h : Times R n i j) :
    j = i ∨ ∃ m < n, ∃ k, k ≠ i ∧ R i k ∧ Times R m k j := by
  induction n with
  | zero => exact .inl h
  | succ n ih =>
    obtain ⟨k, hk, hrest⟩ := h
    by_cases hmove : k = i
    · subst hmove
      obtain heq | ⟨m, hm, hstep⟩ := ih hrest
      · exact .inl heq
      · exact .inr ⟨m, by omega, hstep⟩
    · exact .inr ⟨n, by omega, k, hmove, hk, hrest⟩

/-- While rounds are needed, there is another one. -/
theorem reach_of_lt (h : count < low) :
    Reach R low high count i j ↔ ∃ k, R i k ∧ Reach R low high (count + 1) k j := by
  constructor
  · rintro ⟨n, hlow, hhigh, hn⟩
    obtain ⟨n, rfl⟩ : ∃ m, n = m + 1 := ⟨n - 1, by omega⟩
    obtain ⟨k, hk, hrest⟩ := hn
    exact ⟨k, hk, n, by omega, fun m hm => by have := hhigh m hm; omega, hrest⟩
  · rintro ⟨k, hk, n, hlow, hhigh, hn⟩
    exact ⟨n + 1, by omega, fun m hm => by have := hhigh m hm; omega, k, hk, hn⟩

/-- When no more rounds are needed, only those are of use that move. -/
theorem reach_of_le (hlow : low ≤ count) (hhigh : ∀ m ∈ high, count ≤ m) :
    Reach R low high count i j ↔
      j = i ∨ ∃ k, R i k ∧ k ≠ i ∧ Reach R low high (count + 1) k j := by
  constructor
  · rintro ⟨n, -, hn, hsteps⟩
    obtain heq | ⟨m, hm, k, hmove, hk, hrest⟩ := hsteps.move
    · exact .inl heq
    · exact .inr ⟨k, hk, hmove, m, by omega, fun b hb => by have := hn b hb; omega, hrest⟩
  · rintro (rfl | ⟨k, hk, -, n, hn, hle, hrest⟩)
    · exact ⟨0, by omega, by simpa using hhigh, rfl⟩
    · exact ⟨n + 1, by omega, fun b hb => by have := hle b hb; omega, k, hk, hrest⟩

end

section

variable {body : Follow → Follow} {greed : Greed} {low count size fuel : Nat} {high : Option Nat}
  {last : Option Nat} {follow : Follow} {F : Nat → Prop} {R : Nat → Nat → Prop} {s : Spot}

/-- A round that has passed nothing is followed by no other one. -/
theorem rounds_last (h : low ≤ count) :
    rounds body greed low high fuel count (some s.place) follow s = follow s := by
  cases fuel with
  | zero => rfl
  | succ fuel => simp [rounds, Nat.not_lt.mpr h]

theorem rounds_full (hlow : low ≤ count) (hfull : ¬ high.all (count < ·)) :
    rounds body greed low high fuel count last follow s = follow s := by
  cases fuel with
  | zero => rfl
  | succ fuel => simp [rounds, Nat.not_lt.mpr hlow, hfull]

/-- Whether the round or what follows is tried first makes no difference to whether one succeeds. -/
theorem rounds_more (hgreed : greed ≠ .possessive) (hlow : low ≤ count)
    (hmore : high.all (count < ·)) (hlast : last ≠ some s.place) :
    (rounds body greed low high (fuel + 1) count last follow s).isSome ↔
      (follow s).isSome ∨
        (body (rounds body greed low high fuel (count + 1) (some s.place) follow) s).isSome := by
  cases greed with
  | greedy => simp [rounds, Nat.not_lt.mpr hlow, hmore, hlast, or_comm]
  | lazy => simp [rounds, Nat.not_lt.mpr hlow, hmore, hlast]
  | possessive => exact absurd rfl hgreed

theorem rounds_needed (hgreed : greed ≠ .possessive) (hlow : count < low) :
    rounds body greed low high (fuel + 1) count last follow s =
      body (rounds body greed low high fuel (count + 1) last follow) s := by
  cases greed with
  | greedy | lazy => simp [rounds, hlow]
  | possessive => exact absurd rfl hgreed

/-- The rounds that are not needed. The fuel lasts, since of them each but the last one moves. -/
theorem isSome_rounds_of_le (hbody : Tries size body R) (hgreed : greed ≠ .possessive)
    (hlow : low ≤ count) (hhigh : ∀ m ∈ high, count ≤ m) (hlast : last ≠ some s.place)
    (hs : s.place ≤ size) (hfuel : size < fuel + s.place)
    (hfollow : ∀ t : Spot, s.place ≤ t.place → t.place ≤ size →
      ((follow t).isSome ↔ F t.place)) :
    (rounds body greed low high fuel count last follow s).isSome ↔
      ∃ j, Reach R low high count s.place j ∧ F j := by
  induction fuel generalizing count last s with
  | zero => omega
  | succ fuel ih =>
    simp only [reach_of_le hlow hhigh, or_and_right, exists_or, exists_eq_left]
    have hhere : (follow s).isSome ↔ F s.place := hfollow s (Nat.le_refl _) hs
    by_cases hmore : high.all (count < ·)
    · have hbound : ∀ m ∈ high, count < m := by simpa [Option.all_eq_true] using hmore
      have hround : (body (rounds body greed low high fuel (count + 1) (some s.place) follow)
          s).isSome ↔ ∃ k, R s.place k ∧ (k = s.place ∧ F k ∨
            k ≠ s.place ∧ ∃ j, Reach R low high (count + 1) k j ∧ F j) := by
        refine hbody.isSome_iff hs fun t hle ht => ?_
        by_cases hmove : t.place = s.place
        · rw [← hmove, rounds_last (by omega)]
          simp [hfollow t hle ht]
        · have hrest (u : Spot) (hu : t.place ≤ u.place) : u.place ≤ size →
              ((follow u).isSome ↔ F u.place) := hfollow u (by omega)
          rw [ih (by omega) hbound (by simpa using Ne.symm hmove) ht (by omega) hrest]
          simp [hmove]
      rw [rounds_more hgreed hlow hmore hlast, hround, hhere]
      grind
    · rw [rounds_full hlow hmore, hhere, iff_self_or]
      rintro ⟨j, ⟨k, -, -, n, -, hle, -⟩, -⟩
      exfalso
      obtain ⟨m, hm, hcount⟩ : ∃ m ∈ high, m ≤ count := by
        simpa [Option.all_eq_true] using hmore
      have := hle m hm
      omega

/-- All rounds: until enough are made, each of them uses fuel, whether it moves or not. -/
theorem isSome_rounds (hbody : Tries size body R) (hgreed : greed ≠ .possessive)
    (hcount : count ≤ low) (hhigh : ∀ m ∈ high, low ≤ m) (hs : s.place ≤ size)
    (hfuel : low + size < fuel + count + s.place)
    (hfollow : ∀ t : Spot, s.place ≤ t.place → t.place ≤ size →
      ((follow t).isSome ↔ F t.place)) :
    (rounds body greed low high fuel count none follow s).isSome ↔
      ∃ j, Reach R low high count s.place j ∧ F j := by
  induction fuel generalizing count s with
  | zero => omega
  | succ fuel ih =>
    by_cases hlt : count < low
    · have hnext (t : Spot) (hle : s.place ≤ t.place) (ht : t.place ≤ size) :
          (rounds body greed low high fuel (count + 1) none follow t).isSome ↔
            ∃ j, Reach R low high (count + 1) t.place j ∧ F j :=
        ih hlt ht (by omega) fun u hu => hfollow u (by omega)
      rw [rounds_needed hgreed hlt,
        hbody.isSome_iff (F := fun k => ∃ j, Reach R low high (count + 1) k j ∧ F j) hs hnext]
      simp only [reach_of_lt hlt]
      grind
    · obtain rfl : count = low := by omega
      exact isSome_rounds_of_le hbody hgreed hcount hhigh (by simp) hs (by omega) hfollow

end

/-! ## Patterns -/

section

variable {size : Nat} {body first second : Follow → Follow} {R S : Nat → Nat → Prop}

/-- With nothing to follow, a pattern is found wherever it leads to any place. -/
theorem Tries.isSome (h : Tries size body R) {s : Spot} (hs : s.place ≤ size) :
    (body some s).isSome ↔ ∃ j, R s.place j := by
  have hfound : (body some s).isSome ↔ ∃ j, R s.place j ∧ True :=
    h.isSome_iff hs fun t _ _ => by simp
  simpa only [and_true] using hfound

theorem Tries.seq (hfirst : Tries size first R) (hsecond : Tries size second S) :
    Tries size (fun follow => first (second follow)) fun i j => ∃ k, R i k ∧ S k j where
  within hi h := by
    obtain ⟨k, hk, hj⟩ := h
    have hfirst := hfirst.within hi hk
    have hsecond := hsecond.within hfirst.2 hj
    omega
  isSome_iff {follow F s} hs hfollow := by
    have hnext (t : Spot) (hle : s.place ≤ t.place) (ht : t.place ≤ size) :
        (second follow t).isSome ↔ ∃ j, S t.place j ∧ F j :=
      hsecond.isSome_iff ht fun u hu => hfollow u (by omega)
    rw [hfirst.isSome_iff (F := fun k => ∃ j, S k j ∧ F j) hs hnext]
    grind

theorem Tries.alt (hfirst : Tries size first R) (hsecond : Tries size second S) :
    Tries size (fun follow s => first follow s <|> second follow s) fun i j => R i j ∨ S i j where
  within hi h := h.elim (hfirst.within hi) (hsecond.within hi)
  isSome_iff {follow F s} hs hfollow := by
    have hor : (first follow s <|> second follow s).isSome ↔
        (first follow s).isSome ∨ (second follow s).isSome := by simp
    rw [hor, hfirst.isSome_iff hs hfollow, hsecond.isSome_iff hs hfollow]
    simp only [or_and_right, exists_or]

theorem Tries.loop {greed : Greed} {low : Nat} {high : Option Nat} (hbody : Tries size body R)
    (hgreed : greed ≠ .possessive) (hlow : ∀ m ∈ high, low ≤ m) :
    Tries size (rounds body greed low high (low + size + 2) 0 none)
      fun i j => ∃ n, low ≤ n ∧ (∀ m ∈ high, n ≤ m) ∧ Times R n i j where
  within hi h := h.elim fun _ h => h.2.2.within hbody.within hi
  isSome_iff hs hfollow := by
    simpa only [Reach, Nat.zero_add] using
      isSome_rounds hbody hgreed (Nat.zero_le low) hlow hs (by omega) hfollow

/-- A condition on a place leads nowhere else. -/
theorem Tries.stay {cond : Nat → Prop}
    (h : ∀ (follow : Follow) (s : Spot), s.place ≤ size →
      ∃ t : Spot, t.place = s.place ∧ ((body follow s).isSome ↔ cond s.place ∧ (follow t).isSome)) :
    Tries size body fun i j => cond i ∧ j = i where
  within hi h := by omega
  isSome_iff {follow F s} hs hfollow := by
    obtain ⟨t, ht, hbody⟩ := h follow s hs
    rw [hbody, hfollow t (by omega) (by omega), ht]
    grind

/-- To look around is to try a pattern without going on from where it leads. -/
theorem Tries.look {negated : Bool} {cond : Nat → Prop} {find : Spot → Option Spot}
    (hfind : ∀ s : Spot, s.place ≤ size → ((find s).isSome ↔ cond s.place)) :
    Tries size
      (fun follow s =>
        match find s with
        | some t => if negated then none else follow { t with place := s.place }
        | none => if negated then follow s else none)
      fun i j => (cond i ↔ negated = false) ∧ j = i := by
  refine .stay fun follow s hs => ?_
  rw [← hfind s hs]
  cases find s with
  | some t => exact ⟨{ t with place := s.place }, rfl, by cases negated <;> simp⟩
  | none => exact ⟨s, rfl, by cases negated <;> simp⟩

end

/-- Trying a pattern finds where it leads. -/
theorem tries_tryAt (text : Array Nat) {p : Pattern} (h : p.IsRegular) :
    Tries text.size (tryAt text p) (p.Leads text) := by
  induction h with
  | empty =>
    refine ⟨fun hi h => ?_, fun hs hfollow => ?_⟩
    · simp only [Leads] at h; omega
    · simp [tryAt, Leads, hfollow _ (Nat.le_refl _) hs]
  | oneOf cs sense =>
    refine ⟨fun hi ⟨⟨n, hn, _⟩, hj⟩ => ?_, fun {follow F s} hs hfollow => ?_⟩
    · have := (Array.getElem?_eq_some_iff.mp hn).1
      omega
    · rw [tryAt]
      cases hn : text[s.place]? with
      | none => simp [Leads, hn]
      | some n =>
        have := (Array.getElem?_eq_some_iff.mp hn).1
        have := hfollow { s with place := s.place + 1 } (by simp) (by simpa)
        by_cases hcs : cs.contains sense n <;> simp [Leads, hn, hcs, this]
  | anchor a =>
    refine .stay fun follow s _ => ⟨s, rfl, ?_⟩
    by_cases ha : a.holds text s.place <;> simp [tryAt, ha]
  | seq _ _ ihp ihq => exact ihp.seq ihq
  | alt _ _ ihp ihq => exact ihp.alt ihq
  | loop hgreed hlow _ ih => exact ih.loop hgreed hlow
  | group number _ ih =>
    exact ⟨ih.within, fun hs hfollow => ih.isSome_iff hs fun t hle ht => hfollow _ hle ht⟩
  | ahead negated _ ih => exact .look fun s hs => ih.isSome hs
  | behind negated distance _ ih =>
    refine .look fun s hs => ?_
    by_cases hd : s.place < distance
    · simp [hd, Nat.not_le.mpr hd]
    · have hs : ({ s with place := s.place - distance } : Spot).place ≤ text.size :=
        Nat.le_trans (Nat.sub_le ..) hs
      simpa [hd, Nat.not_lt.mp hd] using ih.isSome hs

/-- A pattern occurs in a text exactly if it leads from some place of it to another. -/
theorem occursIn_iff {p : Pattern} (h : p.IsRegular) (t : Text) :
    p.occursIn t = true ↔
      ∃ i ≤ t.points.length, ∃ j, p.Leads (t.points.map (·.code)).toArray i j := by
  have htry (i : Nat) (hi : i ≤ t.points.length) :=
    (tries_tryAt (t.points.map (·.code)).toArray h).isSome (s := { place := i }) (by simpa using hi)
  simp only [occursIn, List.any_eq_true, List.mem_range, List.size_toArray, List.length_map,
    Nat.lt_succ_iff]
  constructor
  · rintro ⟨i, hi, hsome⟩
    exact ⟨i, hi, (htry i hi).mp hsome⟩
  · rintro ⟨i, hi, hleads⟩
    exact ⟨i, hi, (htry i hi).mpr hleads⟩

/-- Between the anchors of a text, a pattern has to lead through all of it. -/
theorem occursIn_whole {p : Pattern} (h : p.IsRegular) (t : Text) :
    (Pattern.seq (.anchor .start) (.seq p (.anchor .finish))).occursIn t = true ↔
      p.Leads (t.points.map (·.code)).toArray 0 t.points.length := by
  rw [occursIn_iff (.seq (.anchor .start) (.seq h (.anchor .finish)))]
  simp only [Leads, Anchor.holds, beq_iff_eq, List.size_toArray, List.length_map,
    exists_eq_right_right']
  constructor
  · rintro ⟨i, -, j, k, ⟨rfl, rfl⟩, hleads, rfl⟩
    exact hleads
  · exact fun h => ⟨0, Nat.zero_le _, _, 0, ⟨rfl, rfl⟩, h, rfl⟩

-- a round that moves nowhere is needed here too
example :
    (Pattern.seq (.loop .greedy 2 (some 2) (.alt (.anchor .start) (.code 97 {})))
      (.anchor .finish)).occursIn "a" = true := by
  decide

end LabelPress.Pattern
