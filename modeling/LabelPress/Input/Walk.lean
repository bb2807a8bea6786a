import LabelPress.Input.Token

/-!
# Walks over the tokens

A walk hands out the tokens one by one. It ends with the last token or with the first fault, and
stays ended whatever is done to the cursor afterwards.
-/

namespace LabelPress.Input

inductive Walk where
  /-- The first step goes back to the first byte. -/
  | fresh
  | running
  | ended
  deriving DecidableEq, Repr

namespace Walk

/-- The next token of a walk, and how the walk stands after it. -/
def step (encoding : Encoding) (w : Walk) (c : Cursor) :
    Walk × EStateM.Result InputFault Cursor (Option Text) :=
  let read (r : EStateM.Result InputFault Cursor Text) :=
    match r with
    | .error e d => (ended, .error e d)
    | .ok t d => if t = .empty then (ended, .ok none d) else (running, .ok (some t) d)
  match w with
  | ended => (ended, .ok none c)
  | running => read (readToken encoding c)
  | fresh =>
    match c.rewind with
    | .error e d => (ended, .error e d)
    | .ok () d => read (readToken encoding d)

end Walk

end LabelPress.Input
