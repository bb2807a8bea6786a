import LabelPress.Pattern.Reader

/-!
# Searching for patterns

Whether a pattern matches somewhere in a text. A pattern is tried together with what is to follow
it; the first way that leads through to the end counts, so that a reference finds the text that its
group has matched on that way.
-/

namespace LabelPress.Pattern

/-- A place in a text, and what the groups have matched on the way there. -/
structure Spot where
  place : Nat
  /-- The number, the start and the end of every group that has matched, the latest first. -/
  groups : List (Nat × Nat × Nat) := []

/-- What is to follow from a place; nothing if it does not match. -/
abbrev Follow := Spot → Option Spot

/-- Whether a condition on a place holds. -/
def Anchor.holds (a : Anchor) (text : Array Nat) (place : Nat) : Bool :=
  let isBreak (i : Nat) : Bool := text[i]? == some 10
  let isWord (ascii : Bool) (i : Nat) : Bool := text[i]?.any (CharClass.word.contains ascii)
  match a with
  | .start => place == 0
  | .lineStart => place == 0 || isBreak (place - 1)
  | .finish => place == text.size
  | .lastLine => place == text.size || (place + 1 == text.size && isBreak place)
  | .lineEnd => place == text.size || isBreak place
  | .boundary ascii negated =>
    let before := 0 < place && isWord ascii (place - 1)
    !text.isEmpty && ((before != isWord ascii place) != negated)

/-- Goes on behind a run of codes, if that run stands at the place. -/
def passRun (sense : Sense) (text : Array Nat) (first last : Nat) (s : Spot) : Option Spot :=
  let run := (text.extract first last).toList
  let here := (text.extract s.place (s.place + run.length)).toList
  if here.length == run.length && (here.zip run).all fun (m, n) => sense.same m n then
    some { s with place := s.place + run.length }
  else none

/--
A repetition after `count` rounds. The last of those that were not needed began at `last`; if it
has passed nothing, no other one follows.
-/
def rounds (body : Follow → Follow) (greed : Greed) (low : Nat) (high : Option Nat) :
    Nat → Nat → Option Nat → Follow → Follow
  | 0, _, _, follow, s => follow s
  | fuel + 1, count, last, follow, s =>
    let next (needed : Bool) (t : Spot) : Option Spot :=
      rounds body greed low high fuel (count + 1) (if needed then last else some s.place) follow t
    let allowed := high.all (count < ·) && last != some s.place
    let round (needed : Bool) : Option Spot :=
      match greed with
      | .possessive => (body some s).bind (next needed)
      | _ => body (next needed) s
    if count < low then round true
    else if !allowed then follow s
    else
      match greed with
      | .greedy => round false <|> follow s
      | .lazy => follow s <|> round false
      | .possessive => if (body some s).isSome then round false else follow s

/-- Tries a pattern and what is to follow it at a place. -/
def tryAt (text : Array Nat) : Pattern → Follow → Follow
  | .empty, follow, s => follow s
  | .oneOf cs sense, follow, s =>
    match text[s.place]? with
    | some n => if cs.contains sense n then follow { s with place := s.place + 1 } else none
    | none => none
  | .anchor a, follow, s => if a.holds text s.place then follow s else none
  | .seq p q, follow, s => tryAt text p (tryAt text q follow) s
  | .alt p q, follow, s => tryAt text p follow s <|> tryAt text q follow s
  | .loop greed low high p, follow, s =>
    rounds (fun f => tryAt text p f) greed low high (low + text.size + 2) 0 none follow s
  | .group n p, follow, s =>
    tryAt text p (fun t => follow { t with groups := (n, s.place, t.place) :: t.groups }) s
  | .atomic p, follow, s => (tryAt text p some s).bind follow
  | .again n sense, follow, s =>
    match s.groups.find? (·.1 == n) with
    | some (_, first, last) => (passRun sense text first last s).bind follow
    | none => none
  | .given n p q, follow, s =>
    if s.groups.any (·.1 == n) then tryAt text p follow s else tryAt text q follow s
  | .ahead negated p, follow, s =>
    match tryAt text p some s with
    | some t => if negated then none else follow { t with place := s.place }
    | none => if negated then follow s else none
  | .behind negated distance p, follow, s =>
    let found :=
      if s.place < distance then none else tryAt text p some { s with place := s.place - distance }
    match found with
    | some t => if negated then none else follow { t with place := s.place }
    | none => if negated then follow s else none

def occursIn (p : Pattern) (t : Text) : Bool :=
  let codes := (t.points.map (·.code)).toArray
  (List.range (codes.size + 1)).any fun place => (tryAt codes p some { place }).isSome

/-- Whether the pattern that a text writes matches somewhere in another text. -/
def search (pattern t : Text) : Except ReadFault Bool := do
  return (← parse pattern).occursIn t

end LabelPress.Pattern
