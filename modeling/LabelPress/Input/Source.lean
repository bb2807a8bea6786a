/-!
# Byte sources

A source of bytes with a position, which can be told, moved and read from. A source may have
defects: it may not say where it is, not move, not deliver, or report more bytes than it has. What
it refuses it refuses with a fault, and is then as it was before.
-/

namespace LabelPress

structure Source where
  bytes : Array UInt8
  position : Nat := 0
  closed : Bool := false
  /-- Whether the source says that it can be moved. -/
  seekable : Bool := true
  /-- Whether reads are answered. -/
  readable : Bool := true
  /-- Whether the position is told. -/
  locatable : Bool := true
  /-- How many more moves are made, if their number is limited. -/
  movesLeft : Option Nat := none
  /-- How many bytes are reported that are not there. -/
  surplus : Nat := 0
  deriving Repr

/-- Why a source refuses. -/
inductive SourceFault where
  | closed
  | unlocatable
  | immovable
  | unreadable
  /-- The position is beyond what any source can hold. -/
  | tooFar
  deriving DecidableEq, Repr

def SourceFault.reason : SourceFault → String
  | .closed => "I/O operation on closed file."
  | .unlocatable => "position unavailable"
  | .immovable => "seek unavailable"
  | .unreadable => "read unavailable"
  | .tooFar => "new position too large"

namespace Source

/-- The farthest position: a word of 63 bits, or the end of the bytes. -/
def farthest (s : Source) : Nat :=
  max (Nat.pow 2 63 - 1) s.bytes.size

def tell (s : Source) : Except SourceFault Nat :=
  if s.closed then .error .closed
  else if !s.locatable then .error .unlocatable
  else .ok s.position

/-- The source at another position, one move spent. -/
def moveTo (s : Source) (position : Nat) : Except SourceFault Source :=
  if s.movesLeft = some 0 then .error .immovable
  else if s.closed then .error .closed
  else .ok { s with position, movesLeft := s.movesLeft.map (· - 1) }

/-- The source moved by a distance; before the first byte it stops there. -/
def moveBy (s : Source) (distance : Int) : Except SourceFault Source :=
  if s.movesLeft = some 0 then .error .immovable
  else if (s.farthest : Int) < distance ∨ distance < -(Nat.pow 2 63 : Nat) then .error .tooFar
  else if s.closed then .error .closed
  else
    let position := (s.position + distance).toNat
    if s.farthest < position then .error .tooFar else s.moveTo position

/-- The position behind the last byte, as the source reports it. -/
def reportedEnd (s : Source) : Nat :=
  s.bytes.size + s.surplus

/-- The byte at the position, if there is one, and the source behind it. -/
def read (s : Source) : Except SourceFault (Option UInt8 × Source) :=
  if s.closed then .error .closed
  else if !s.readable then .error .unreadable
  else
    match s.bytes[s.position]? with
    | some b => .ok (some b, { s with position := s.position + 1 })
    | none => .ok (none, s)

/-- The source closed; a closed one stays closed. -/
def close (s : Source) : Source :=
  { s with closed := true }

end Source

end LabelPress
