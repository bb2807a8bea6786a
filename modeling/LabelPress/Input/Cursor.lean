import LabelPress.Input.Fault
import LabelPress.Input.Source

/-!
# Cursors

A cursor reads a source byte by byte with one byte of lookahead. It measures the source when it is
set on it, and remembers whether it has been asked for a byte behind the end; only a rewind makes
it forget, and until then a look ahead does not step back.

The lemmas say how far each operation moves: `next` over the byte that it returns, a look ahead by
at most one, and nothing changes the size.
-/

namespace LabelPress

structure Cursor where
  source : Source
  size : Nat
  /-- Whether a byte behind the end was asked for since the last rewind. -/
  atEnd : Bool := false
  deriving Repr

namespace Cursor

/-- Operations that move a cursor; what they changed before a fault stays changed. -/
abbrev Reading := EStateM InputFault Cursor

/-- A cursor at the position of a source. A source that cannot be measured is closed. -/
def «open» : EStateM InputFault Source Cursor := fun s =>
  let fail (reason : String) : EStateM.Result InputFault Source Cursor :=
    .error (.stream (.unmeasurable reason)) s.close
  if s.closed then fail SourceFault.closed.reason
  else if !s.seekable then fail "stream is not seekable"
  else
    match s.tell with
    | .error e => fail e.reason
    | .ok start =>
      match s.moveTo s.reportedEnd with
      | .error e => fail e.reason
      | .ok t =>
        match t.moveTo start with
        | .error e => fail e.reason
        | .ok u => .ok { source := u, size := s.reportedEnd } u

def position : Reading Nat := fun c =>
  match c.source.tell with
  | .ok p => .ok p c
  | .error _ => .error (.stream .unlocatable) c

/-- The next byte, which is then passed; nothing at the end. -/
def next : Reading (Option UInt8) := fun c =>
  match c.source.tell with
  | .error _ => .error (.stream .unlocatable) c
  | .ok p =>
    if c.size < p + 1 then .ok none { c with atEnd := true }
    else
      match c.source.read with
      | .error _ => .error (.stream (.unreadable p)) c
      | .ok (none, _) => .error (.stream (.cutShort p c.size)) c
      | .ok (some b, s) => .ok (some b) { c with source := s }

def move (distance : Int) : Reading Unit := fun c =>
  match c.source.moveBy distance with
  | .ok s => .ok () { c with source := s }
  | .error .tooFar => .error .tooFar c
  | .error _ => .error (.stream (.immovable distance)) c

/-- The next byte; the cursor steps back over it unless the end has been seen. -/
def peek : Reading (Option UInt8) := fun c =>
  match next c with
  | .error e c => .error e c
  | .ok b c =>
    if c.atEnd then .ok b c
    else
      match move (-1) c with
      | .error e c => .error e c
      | .ok () c => .ok b c

/-- Back to the first byte. -/
def rewind : Reading Unit := fun c =>
  let c := { c with atEnd := false }
  match c.source.moveTo 0 with
  | .ok s => .ok () { c with source := s }
  | .error _ => .error (.stream .notRewindable) c

def close (c : Cursor) : Cursor :=
  { c with source := c.source.close }

/-! ### How far the operations move -/

theorem bind_eq_ok {σ α β : Type} {x : EStateM InputFault σ α} {f : α → EStateM InputFault σ β}
    {s t : σ} {b : β} :
    (x >>= f) s = .ok b t ↔ ∃ a u, x s = .ok a u ∧ f a u = .ok b t := by
  simp only [bind, EStateM.bind]
  cases x s with
  | ok a u =>
    constructor
    · exact fun h => ⟨a, u, rfl, h⟩
    · rintro ⟨_, _, ⟨⟩, h⟩
      exact h
  | error e u => simp

theorem tell_eq_ok {s : Source} {p : Nat} (h : s.tell = .ok p) : p = s.position := by
  unfold Source.tell at h
  split at h
  · cases h
  · split at h <;> cases h
    rfl

theorem position_of_moveTo {s t : Source} {p : Nat} (h : s.moveTo p = .ok t) :
    t.position = p := by
  unfold Source.moveTo at h
  split at h
  · cases h
  · split at h <;> cases h
    rfl

theorem position_of_moveBy {s t : Source} {d : Int} (h : s.moveBy d = .ok t) :
    t.position = (s.position + d).toNat := by
  unfold Source.moveBy at h
  split at h
  · cases h
  · split at h
    · cases h
    · split at h
      · cases h
      · simp only at h
        split at h
        · cases h
        · exact position_of_moveTo h

theorem position_of_read {s t : Source} {b : UInt8} (h : s.read = .ok (some b, t)) :
    t.position = s.position + 1 := by
  unfold Source.read at h
  split at h
  · cases h
  · split at h
    · cases h
    · split at h <;> cases h
      rfl

theorem position_eq_ok {c d : Cursor} {p : Nat} (h : position c = .ok p d) : d = c := by
  unfold position at h
  split at h <;> cases h
  rfl

/-- A byte that is returned stood before the end, and the cursor is now behind it. -/
theorem next_eq_some {c d : Cursor} {b : UInt8} (h : next c = .ok (some b) d) :
    c.source.position < c.size ∧ d.size = c.size ∧
      d.source.position = c.source.position + 1 := by
  unfold next at h
  split at h
  · cases h
  · rename_i p hp
    have := tell_eq_ok hp
    subst this
    split at h
    · cases h
    · split at h
      · cases h
      · cases h
      · rename_i hr
        cases h
        exact ⟨by omega, rfl, position_of_read hr⟩

/-- At the end the cursor stays where it is, and remembers the end. -/
theorem next_eq_none {c d : Cursor} (h : next c = .ok none d) :
    d = { c with atEnd := true } := by
  unfold next at h
  split at h
  · cases h
  · split at h
    · cases h
      rfl
    · split at h <;> cases h

theorem move_eq_ok {c d : Cursor} {n : Int} (h : move n c = .ok () d) :
    d.size = c.size ∧ d.source.position = (c.source.position + n).toNat := by
  unfold move at h
  split at h
  · rename_i hm
    cases h
    exact ⟨rfl, position_of_moveBy hm⟩
  · cases h
  · cases h

/-- A byte that is seen ahead stood before the end, and the cursor has not moved back. -/
theorem peek_eq_some {c d : Cursor} {b : UInt8} (h : peek c = .ok (some b) d) :
    c.source.position < c.size ∧ d.size = c.size ∧
      c.source.position ≤ d.source.position := by
  unfold peek at h
  split at h
  · cases h
  · rename_i b' e hn
    split at h
    · cases h
      have := next_eq_some hn
      omega
    · split at h
      · cases h
      · rename_i hm
        cases h
        have := next_eq_some hn
        have := move_eq_ok hm
        omega

/-- Seeing the end moves nothing. -/
theorem peek_eq_none {c d : Cursor} (h : peek c = .ok none d) :
    d = { c with atEnd := true } := by
  unfold peek at h
  split at h
  · cases h
  · rename_i b' e hn
    split at h
    · cases h
      exact next_eq_none hn
    · rename_i hend
      split at h
      · cases h
      · cases h
        exact absurd (congrArg Cursor.atEnd (next_eq_none hn)) hend

end Cursor

end LabelPress
