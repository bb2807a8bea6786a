import LabelPress.Proofs.Input.InMemory
import Mathlib.Data.List.Induction

/-!
# Looking ahead

A look ahead reads a byte and steps back over it. It does not step back once the end has been seen, and
a cursor remembers this until it is rewound, wherever it is moved in between. So there is one way to
make a look ahead move: see the end, and move back before it.

`Cursor.LooksAhead` is what a look ahead should do: stand still, and show the byte that is read next.
`Cursor.looksAhead_iff` says after which histories of a cursor in memory it does, and that in all others
looking ahead is reading. The memory of the cursor is described without its flag by `Cursor.EndSeen`;
`Cursor.after_inMemory` says that the flag is right about it.
-/

namespace LabelPress

namespace Cursor

/-- What can be done with a cursor short of closing it. -/
inductive Motion where
  | next
  | peek
  | move (distance : Int)
  | rewind
  deriving DecidableEq, Repr

/-- The cursor that an operation leaves, whatever came of it. -/
def left {A : Type} : EStateM.Result InputFault Cursor A → Cursor
  | .ok _ c => c
  | .error _ c => c

/-- Whether a byte is asked for. -/
def Motion.Reads (m : Motion) : Prop :=
  m = next ∨ m = peek

def act (c : Cursor) : Motion → Cursor
  | .next => left c.next
  | .peek => left c.peek
  | .move distance => left (c.move distance)
  | .rewind => left c.rewind

/-- The cursor after a history, each operation being tried whatever came of those before. -/
def after (history : List Motion) (c : Cursor) : Cursor :=
  history.foldl act c

/-- A byte was asked for at the end, and there was no rewind since. -/
def EndSeen (history : List Motion) (c : Cursor) : Prop :=
  ∃ before m later, history = before ++ m :: later ∧ m.Reads ∧
    c.size ≤ (c.after before).source.position ∧ .rewind ∉ later

/-- A look ahead stands still, and shows what is read next. -/
def LooksAhead (c : Cursor) : Prop :=
  ∃ b d e, peek c = .ok b d ∧ d.source.position = c.source.position ∧ next d = .ok b e

variable {bytes : Array UInt8} {p : Nat} {ended : Bool} {history : List Motion} {m : Motion}

/-! ## Histories -/

theorem after_concat (history : List Motion) (m : Motion) (c : Cursor) :
    c.after (history ++ [m]) = (c.after history).act m := by
  simp [after]

/-- The end has been seen if the last operation reads there, or if it was seen before and has not
been forgotten by rewinding. -/
theorem endSeen_concat {c : Cursor} :
    EndSeen (history ++ [m]) c ↔
      (m.Reads ∧ c.size ≤ (c.after history).source.position) ∨ (m ≠ .rewind ∧ EndSeen history c) := by
  constructor
  · rintro ⟨before, n, later, hsplit, hreads, hend, hlater⟩
    -- either the last operation saw the end, or it comes later than the one that did
    rcases List.eq_nil_or_concat later with rfl | ⟨later, last, rfl⟩
    · obtain ⟨rfl, hlast⟩ := List.append_inj' hsplit rfl
      cases hlast
      exact .inl ⟨hreads, hend⟩
    · rw [List.concat_eq_append, ← List.cons_append, ← List.append_assoc] at hsplit
      obtain ⟨rfl, hlast⟩ := List.append_inj' hsplit rfl
      cases hlast
      rw [List.concat_eq_append, List.mem_append, List.mem_singleton, not_or] at hlater
      exact .inr ⟨Ne.symm hlater.2, before, n, later, rfl, hreads, hend, hlater.1⟩
  · rintro (⟨hreads, hend⟩ | ⟨hm, before, n, later, rfl, hreads, hend, hlater⟩)
    · exact ⟨history, m, [], rfl, hreads, hend, List.not_mem_nil⟩
    · refine ⟨before, n, later ++ [m], by simp, hreads, hend, ?_⟩
      rw [List.mem_append, List.mem_singleton, not_or]
      exact ⟨hlater, Ne.symm hm⟩

/-! ## Single operations -/

theorem drop_of_lt (h : p < bytes.size) :
    bytes.toList.drop p = bytes[p] :: bytes.toList.drop (p + 1) := by
  rw [List.drop_eq_getElem_cons (by simpa using h), Array.getElem_toList]

theorem next_of_lt (h : p < bytes.size) :
    next (inMemory bytes p ended) = .ok (some bytes[p]) (inMemory bytes (p + 1) ended) :=
  next_of_cons (drop_of_lt h)

theorem next_of_le (h : bytes.size ≤ p) :
    next (inMemory bytes p ended) = .ok none (inMemory bytes p true) :=
  next_of_nil (List.drop_eq_nil_of_le h)

/-- Once the end has been seen, looking ahead is reading. -/
theorem peek_of_atEnd {c : Cursor} (h : c.atEnd = true) : peek c = next c := by
  have hkept {b : Option UInt8} {d : Cursor} (hn : next c = .ok b d) : d.atEnd = true := by
    cases b with
    | none => rw [next_eq_none hn]
    | some b =>
      unfold next at hn
      repeat' split at hn
      all_goals cases hn
      exact h
  cases hn : next c with
  | error e d =>
    unfold peek
    rw [hn]
  | ok b d => exact peek_of_next hn (hkept hn)

theorem peek_of_lt (h : p < bytes.size) :
    peek (inMemory bytes p false) = .ok (some bytes[p]) (inMemory bytes p false) :=
  peek_of_cons (drop_of_lt h)

theorem peek_of_le (h : bytes.size ≤ p) :
    peek (inMemory bytes p ended) = .ok none (inMemory bytes p true) :=
  peek_of_nil (List.drop_eq_nil_of_le h)

/-- A move leaves the bytes and the memory of the end, and a refused one leaves the place too. -/
theorem left_move (d : Int) :
    ∃ q, left (move d (inMemory bytes p ended)) = inMemory bytes q ended ∧
      (0 ≤ d → p ≤ q) := by
  unfold move Source.moveBy Source.moveTo
  simp only [inMemory, Source.inMemory]
  split
  · next s hs =>
    simp only [reduceCtorEq, if_false, Bool.false_eq_true, Option.map_none] at hs
    split at hs
    · cases hs
    · split at hs
      · cases hs
      · cases hs
        exact ⟨_, rfl, fun hd => by omega⟩
  · exact ⟨p, rfl, fun _ => Nat.le_refl p⟩
  · exact ⟨p, rfl, fun _ => Nat.le_refl p⟩

/-- What one operation does to a cursor in memory, as far as the end is concerned. If it does not move
back, a cursor that stood behind the bytes it had seen the end of still does. -/
theorem act_inMemory (m : Motion) :
    ∃ q e, (inMemory bytes p ended).act m = inMemory bytes q e ∧
      (e = true ↔ (m.Reads ∧ bytes.size ≤ p) ∨ (m ≠ .rewind ∧ ended = true)) ∧
      ((∀ d, m = .move d → 0 ≤ d) → (ended = true → bytes.size ≤ p) → e = true →
        bytes.size ≤ q) := by
  cases m with
  | next =>
    by_cases h : p < bytes.size
    · refine ⟨p + 1, ended, congrArg left (next_of_lt h), by simp [Nat.not_le.2 h], ?_⟩
      exact fun _ hend he => Nat.le_succ_of_le (hend he)
    · rw [Nat.not_lt] at h
      exact ⟨p, true, congrArg left (next_of_le h), by simp [Motion.Reads, h], fun _ _ _ => h⟩
  | peek =>
    by_cases h : p < bytes.size
    · cases ended with
      | false => exact ⟨p, false, congrArg left (peek_of_lt h), by simp [Nat.not_le.2 h], by simp⟩
      -- once the end was seen, a look ahead is not taken back
      | true =>
        have hpeek : peek (inMemory bytes p true) = _ := (peek_of_atEnd rfl).trans (next_of_lt h)
        refine ⟨p + 1, true, congrArg left hpeek, by simp, ?_⟩
        exact fun _ hend he => Nat.le_succ_of_le (hend he)
    · rw [Nat.not_lt] at h
      exact ⟨p, true, congrArg left (peek_of_le h), by simp [Motion.Reads, h], fun _ _ _ => h⟩
  | move d =>
    obtain ⟨q, hq, hle⟩ := @left_move bytes p ended d
    refine ⟨q, ended, hq, by simp [Motion.Reads], ?_⟩
    exact fun hd hend he => Nat.le_trans (hend he) (hle (hd d rfl))
  | rewind => exact ⟨0, false, rfl, by simp [Motion.Reads], by simp⟩

/-! ## Whole histories -/

/-- The flag of a cursor in memory says whether the end has been seen, whatever has been done. It is off
before the end if the cursor was not moved back. -/
theorem after_inMemory (bytes : Array UInt8) (start : Nat) (history : List Motion) :
    ∃ q e, (inMemory bytes start false).after history = inMemory bytes q e ∧
      (e = true ↔ EndSeen history (inMemory bytes start false)) ∧
      ((∀ d, .move d ∈ history → 0 ≤ d) → e = true → bytes.size ≤ q) := by
  -- by induction on the history, from its last operation backwards
  induction history using List.reverseRecOn with
  | nil => exact ⟨start, false, rfl, by simp [EndSeen], by simp⟩
  | append_singleton history m ih =>
    obtain ⟨q, e, hafter, he, hforward⟩ := ih
    obtain ⟨r, f, hact, hf, hkept⟩ := @act_inMemory bytes q e m
    refine ⟨r, f, ?_, ?_, fun hhistory => ?_⟩
    · rw [after_concat, hafter, hact]
    · have hplace : ((inMemory bytes start false).after history).source.position = q := by
        rw [hafter]
        rfl
      rw [hf, endSeen_concat, he, hplace]
      rfl
    · apply hkept
      · rintro d rfl
        exact hhistory d (List.mem_append_right _ List.mem_cons_self)
      · exact hforward fun d hd => hhistory d (List.mem_append_left _ hd)

/-- A cursor looks ahead without moving unless it has seen the end and stands before it again. -/
theorem looksAhead_inMemory :
    (inMemory bytes p ended).LooksAhead ↔ ¬ (ended = true ∧ p < bytes.size) := by
  by_cases h : p < bytes.size
  · cases ended with
    | false => exact iff_of_true ⟨_, _, _, peek_of_lt h, rfl, next_of_lt h⟩ (by simp)
    | true =>
      refine iff_of_false ?_ (by simp [h])
      rintro ⟨b, d, e, hpeek, hplace, -⟩
      -- the byte that is shown is passed
      rw [peek_of_atEnd rfl, next_of_lt h] at hpeek
      cases hpeek
      exact absurd hplace (Nat.succ_ne_self p)
  · rw [Nat.not_lt] at h
    exact iff_of_true ⟨_, _, _, peek_of_le h, rfl, next_of_le h⟩ (by simp [Nat.not_lt.2 h])

/-- When a cursor on bytes in memory looks ahead: unless the end has been seen since the last rewind, and
the cursor stands before it now. Once the end has been seen, looking ahead is reading, so that it passes
the byte that it shows. This cannot come about as long as the cursor is never moved back but by a
rewind. -/
theorem looksAhead_iff (bytes : Array UInt8) (start : Nat) (history : List Motion) :
    ∃ c, Cursor.open (.inMemory bytes start) = .ok c (.inMemory bytes start) ∧
      ((c.after history).LooksAhead ↔
        ¬ (EndSeen history c ∧ (c.after history).source.position < bytes.size)) ∧
      (EndSeen history c → peek (c.after history) = next (c.after history)) ∧
      ((∀ d, .move d ∈ history → 0 ≤ d) → (c.after history).LooksAhead) := by
  refine ⟨inMemory bytes start false, rfl, ?_⟩
  obtain ⟨q, e, hafter, he, hforward⟩ := after_inMemory bytes start history
  rw [hafter, looksAhead_inMemory, he]
  refine ⟨Iff.rfl, fun hend => peek_of_atEnd (he.2 hend), fun hhistory => ?_⟩
  exact fun ⟨hend, hlt⟩ => absurd (hforward hhistory (he.2 hend)) (Nat.not_le.2 hlt)

/-- Of two bytes the second one is passed by a look ahead, after the end has been seen behind it. -/
theorem not_looksAhead_moved_back :
    let c := (inMemory "ab".toUTF8.data 0 false).after [.move 2, .next, .move (-1)]
    c.source.position = 1 ∧ (∃ d, peek c = .ok (some 0x62) d ∧ d.source.position = 2) ∧
      ¬ c.LooksAhead := by
  intro c
  refine ⟨rfl, ⟨_, rfl, rfl⟩, ?_⟩
  have hc : c = inMemory "ab".toUTF8.data 1 true := rfl
  rw [hc, looksAhead_inMemory]
  decide

end Cursor

end LabelPress
