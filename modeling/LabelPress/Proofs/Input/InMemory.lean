import LabelPress.Input.Token
import Mathlib.Tactic.ByContra

/-!
# Cursors on bytes in memory

A source in memory has no defects, so every operation of a cursor on it is known from the bytes that
are still to come, `bytes.toList.drop p` at position `p`:

* `next_of_cons` and `next_of_nil`: the first of these bytes, or the end;
* `peek_of_cons` and `peek_of_nil`: the same byte, and the cursor stays where it is as long as the
  end has not been seen;
* `skipSpaceFrom_inMemory`: white space is passed, and nothing else;
* `readBodyFrom_inMemory`: all bytes up to the next mark are passed, and `sift` says which of them
  are kept.

The end flag is on only behind the last byte in all of these, which is what makes looking ahead
harmless.
-/

namespace LabelPress

/-- A source in memory, at a position. -/
def Source.inMemory (bytes : Array UInt8) (position : Nat) : Source := { bytes, position }

namespace Cursor

/-- A cursor on a source in memory. -/
def inMemory (bytes : Array UInt8) (position : Nat) (ended : Bool) : Cursor :=
  { source := .inMemory bytes position, size := bytes.size, atEnd := ended }

variable {bytes : Array UInt8} {p : Nat} {b : UInt8} {rest : List UInt8} {ended : Bool}

theorem rewind_inMemory (bytes : Array UInt8) (p : Nat) (ended : Bool) :
    rewind (inMemory bytes p ended) = .ok () (inMemory bytes 0 false) := rfl

/-! ## Single operations -/

/-- The first of the bytes to come stands at the position. -/
theorem drop_eq_cons (h : bytes.toList.drop p = b :: rest) :
    p < bytes.size ∧ bytes[p]? = some b ∧ bytes.toList.drop (p + 1) = rest := by
  have hlt : p < bytes.toList.length := by
    by_contra hle
    rw [List.drop_eq_nil_of_le (Nat.le_of_not_lt hle)] at h
    cases h
  rw [List.drop_eq_getElem_cons hlt] at h
  obtain ⟨hb, hrest⟩ := List.cons.inj h
  refine ⟨by simpa using hlt, ?_, hrest⟩
  rw [← Array.getElem?_toList, List.getElem?_eq_getElem hlt, hb]

theorem drop_eq_nil (h : bytes.toList.drop p = []) : bytes.size ≤ p := by
  have := List.drop_eq_nil_iff.1 h
  simpa using this

/-- A byte is read before the end. -/
theorem next_of_read {c : Cursor} {s : Source} (ht : c.source.tell = .ok p)
    (hp : ¬ c.size < p + 1) (hr : c.source.read = .ok (some b, s)) :
    next c = .ok (some b) { c with source := s } := by
  unfold next
  rw [ht]
  simp only [if_neg hp, hr]

theorem next_at_end {c : Cursor} (ht : c.source.tell = .ok p) (hp : c.size < p + 1) :
    next c = .ok none { c with atEnd := true } := by
  unfold next
  rw [ht]
  simp only [if_pos hp]

theorem next_of_cons (h : bytes.toList.drop p = b :: rest) :
    next (inMemory bytes p ended) = .ok (some b) (inMemory bytes (p + 1) ended) := by
  obtain ⟨hlt, hb, -⟩ := drop_eq_cons h
  have hread : (Source.inMemory bytes p).read = .ok (some b, .inMemory bytes (p + 1)) := by
    simp only [Source.read, Source.inMemory, hb]
    rfl
  exact next_of_read (c := inMemory bytes p ended) rfl (Nat.not_lt.2 hlt) hread

theorem next_of_nil (h : bytes.toList.drop p = []) :
    next (inMemory bytes p ended) = .ok none (inMemory bytes p true) :=
  next_at_end (c := inMemory bytes p ended) rfl (Nat.lt_succ_of_le (drop_eq_nil h))

/-- A move that ends within the bytes is made. -/
theorem move_inMemory {d : Int} (hlow : -(Nat.pow 2 63 : Nat) ≤ d) (hhigh : p + d ≤ bytes.size) :
    move d (inMemory bytes p ended) = .ok () (inMemory bytes (p + d).toNat ended) := by
  have hfar : bytes.size ≤ (Source.inMemory bytes p).farthest := Nat.le_max_right _ _
  have hmove : (Source.inMemory bytes p).moveBy d = .ok (.inMemory bytes (p + d).toNat) := by
    -- neither the distance nor the place is beyond what a source can hold
    have hd : ¬ (((Source.inMemory bytes p).farthest : Int) < d ∨ d < -(Nat.pow 2 63 : Nat)) := by
      omega
    have hend : ¬ (Source.inMemory bytes p).farthest < (p + d).toNat := by omega
    unfold Source.moveBy
    rw [if_neg (by simp [Source.inMemory]), if_neg hd]
    exact if_neg hend
  unfold move
  rw [show (inMemory bytes p ended).source = .inMemory bytes p from rfl, hmove]
  rfl

theorem peek_of_next {c d : Cursor} {x : Option UInt8} (hn : next c = .ok x d)
    (hd : d.atEnd = true) : peek c = .ok x d := by
  unfold peek
  rw [hn]
  simp only [hd, if_true]

theorem peek_of_next_move {c d e : Cursor} {x : Option UInt8} (hn : next c = .ok x d)
    (hd : d.atEnd = false) (hm : move (-1) d = .ok () e) : peek c = .ok x e := by
  unfold peek
  rw [hn]
  simp only [hd, Bool.false_eq_true, if_false]
  rw [hm]

theorem peek_of_cons (h : bytes.toList.drop p = b :: rest) :
    peek (inMemory bytes p false) = .ok (some b) (inMemory bytes p false) := by
  have hlt := (drop_eq_cons h).1
  -- the step back leads to where the cursor was
  refine peek_of_next_move (next_of_cons h) rfl ?_
  rw [move_inMemory (by decide) (by omega), show ((p + 1 : Nat) + (-1 : Int)).toNat = p by omega]

theorem peek_of_nil (h : bytes.toList.drop p = []) :
    peek (inMemory bytes p ended) = .ok none (inMemory bytes p true) :=
  peek_of_next (next_of_nil h) rfl

/-- One byte further, if there is one. -/
theorem move_one_of_cons (h : bytes.toList.drop p = b :: rest) :
    move 1 (inMemory bytes p ended) = .ok () (inMemory bytes (p + 1) ended) := by
  have hlt := (drop_eq_cons h).1
  rw [move_inMemory (by decide) (by omega), show ((p : Int) + 1).toNat = p + 1 by omega]

end Cursor

namespace Input

open Cursor (inMemory)

variable {bytes : Array UInt8} {p : Nat} {todo : List UInt8} {ended : Bool}

/-! ## White space and the body of a command -/

/-- Unfolding equation for `skipSpaceFrom`, without the proofs that its recursion needs. -/
theorem skipSpaceFrom_eq (c : Cursor) :
    skipSpaceFrom c =
      match c.peek with
      | .error e d => .error e d
      | .ok none d => .ok () d
      | .ok (some b) d =>
        if isSpace b then
          match d.move 1 with
          | .error e d => .error e d
          | .ok () d => skipSpaceFrom d
        else .ok () d := by
  conv_lhs => rw [skipSpaceFrom]
  split
  · next hp => rw [hp]
  · next hp => rw [hp]
  · next hp =>
    rw [hp]
    simp only
    split
    · split
      · next hm => rw [hm]
      · next hm => rw [hm]
    · rfl

/-- Unfolding equation for `readBodyFrom`, without the proofs that its recursion needs. -/
theorem readBodyFrom_eq (command : Array UInt8) (c : Cursor) :
    readBodyFrom command c =
      match c.peek with
      | .error e d => .error e d
      | .ok none d => .ok command d
      | .ok (some b) d =>
        if isMark b then .ok command d
        else if isSpace b && !isFieldData command then
          match d.move 1 with
          | .error e d => .error e d
          | .ok () d => readBodyFrom command d
        else
          match d.next with
          | .error e d => .error e d
          | .ok none d => .ok command d
          | .ok (some b) d => readBodyFrom (command.push b) d := by
  -- the definition keeps the equations that its termination needs; without them it reads like this
  conv_lhs => rw [readBodyFrom]
  split
  · next hp => rw [hp]
  · next hp => rw [hp]
  · next hp =>
    rw [hp]
    simp only
    split
    · rfl
    split
    · split
      · next hm => rw [hm]
      · next hm => rw [hm]
    · split
      · next hn => rw [hn]
      · next hn => rw [hn]
      · next hn => rw [hn]

/-- White space is passed, and the end is seen if nothing follows. -/
theorem skipSpaceFrom_inMemory (h : bytes.toList.drop p = todo) (hend : ended = true → todo = []) :
    skipSpaceFrom (inMemory bytes p ended) =
      .ok () (inMemory bytes (p + (todo.takeWhile isSpace).length)
        (todo.dropWhile isSpace).isEmpty) := by
  -- by induction on the bytes to come; the end flag is off as long as there are any
  induction todo generalizing p ended with
  | nil =>
    rw [skipSpaceFrom_eq, Cursor.peek_of_nil h]
    rfl
  | cons b rest ih =>
    have hfalse : ended = false := by
      by_contra htrue
      cases hend (by simpa using htrue)
    subst hfalse
    rw [skipSpaceFrom_eq, Cursor.peek_of_cons h]
    simp only
    by_cases hb : isSpace b = true
    · rw [if_pos hb, Cursor.move_one_of_cons h]
      simp only
      rw [ih (Cursor.drop_eq_cons h).2.2 (by simp), List.takeWhile_cons_of_pos hb,
        List.dropWhile_cons_of_pos hb, List.length_cons, Nat.add_right_comm, Nat.add_assoc]
    · rw [if_neg hb, List.takeWhile_cons_of_neg hb, List.dropWhile_cons_of_neg hb]
      rfl

/-- The bytes that are kept of what follows a mark, after those that have been kept already: white
space is dropped until the bytes kept begin with the code of field data. -/
def sift : Array UInt8 → List UInt8 → Array UInt8
  | kept, [] => kept
  | kept, b :: bs =>
    if isSpace b && !isFieldData kept then sift kept bs else sift (kept.push b) bs

/-- The bytes up to the next mark are passed, and `sift` says which of them are kept. -/
theorem readBodyFrom_inMemory {kept : Array UInt8} (h : bytes.toList.drop p = todo) :
    readBodyFrom kept (inMemory bytes p false) =
      .ok (sift kept (todo.takeWhile (!isMark ·)))
        (inMemory bytes (p + (todo.takeWhile (!isMark ·)).length)
          (todo.dropWhile (!isMark ·)).isEmpty) := by
  -- by induction on the bytes to come, for all bytes that may have been kept so far
  induction todo generalizing p kept with
  | nil =>
    rw [readBodyFrom_eq, Cursor.peek_of_nil h]
    rfl
  | cons b rest ih =>
    have hrest := (Cursor.drop_eq_cons h).2.2
    rw [readBodyFrom_eq, Cursor.peek_of_cons h]
    simp only
    by_cases hmark : isMark b = true
    · have hstop : ¬ (!isMark b) = true := by simpa using hmark
      rw [if_pos hmark, List.takeWhile_cons_of_neg (p := fun b => !isMark b) hstop,
        List.dropWhile_cons_of_neg (p := fun b => !isMark b) hstop]
      rfl
    · have hpass : (!isMark b) = true := by simpa using hmark
      rw [if_neg hmark, List.takeWhile_cons_of_pos (p := fun b => !isMark b) hpass,
        List.dropWhile_cons_of_pos (p := fun b => !isMark b) hpass, List.length_cons, sift]
      have hplace : p + ((rest.takeWhile (!isMark ·)).length + 1) =
        p + 1 + (rest.takeWhile (!isMark ·)).length := by omega
      rw [hplace]
      -- a byte is passed by a move if it is dropped, and by `next` if it is kept
      split
      · rw [Cursor.move_one_of_cons h]
        exact ih hrest
      · rw [Cursor.next_of_cons h]
        exact ih hrest

end Input

end LabelPress
