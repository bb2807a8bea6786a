import LabelPress.Text.Blank
import LabelPress.Text.Digit
import LabelPress.Text.Word

/-!
# Patterns

A pattern describes texts: sets of code points one after another, with alternatives, repetitions,
groups that can be referred to, and conditions on what stands before and after. This module has the
patterns themselves, how long a text they describe, and why a text is none of them; they are read and
matched elsewhere.
-/

namespace LabelPress

namespace Pattern

/-- Why a text is no pattern. -/
inductive ReadFault where
  | malformed
  /-- Something is to be repeated more often than can be counted. -/
  | tooOften
  /-- Two modes exclude each other. -/
  | contradiction
  deriving DecidableEq, Repr

inductive CharClass where
  | digit
  | space
  | word
  deriving DecidableEq, Repr

/-- Whether a code is in a class, of which only the ASCII part may be meant. -/
def CharClass.contains (k : CharClass) (ascii : Bool) (n : Nat) : Bool :=
  (!ascii || n < 0x80) &&
    match k with
    | .digit => (CodePoint.ofCode n).meets fun c => (Text.digitValue? c).isSome
    | .space =>
      if ascii then n == 0x20 || (0x09 ≤ n && n ≤ 0x0d)
      else (CodePoint.ofCode n).meets Text.isBlank
    | .word => Text.isWordCode n

/-- A part of a set of codes. -/
inductive Member where
  | range (first last : Nat)
  | cls (k : CharClass) (negated : Bool)
  deriving DecidableEq, Repr

/-- Whether case and characters beyond ASCII matter. -/
structure Sense where
  ignoreCase : Bool := false
  ascii : Bool := false
  deriving DecidableEq, Repr

namespace Sense

/-- The codes that count as a code. -/
def variants (s : Sense) (n : Nat) : List Nat :=
  if !s.ignoreCase then [n]
  else if s.ascii then
    if n < 0x80 then (Text.caseVariants n).filter (· < 0x80) else [n]
  else Text.caseVariants n

def same (s : Sense) (m n : Nat) : Bool :=
  (s.variants m).contains n

end Sense

/-- Whether a code is in a part of a set. -/
def Member.contains (m : Member) (s : Sense) (n : Nat) : Bool :=
  match m with
  | .range first last => (s.variants n).any fun v => first ≤ v && v ≤ last
  | .cls k negated => k.contains s.ascii n != negated

/-- A set of codes, or all codes but those. -/
structure CharSet where
  members : List Member
  negated : Bool := false
  deriving DecidableEq, Repr

def CharSet.contains (cs : CharSet) (s : Sense) (n : Nat) : Bool :=
  cs.members.any (·.contains s n) != cs.negated

/-- A condition on a place in a text. -/
inductive Anchor where
  /-- Nothing stands before. -/
  | start
  /-- Nothing stands before, or a line break. -/
  | lineStart
  /-- Nothing stands after. -/
  | finish
  /-- Nothing stands after but perhaps one line break. -/
  | lastLine
  /-- Nothing stands after, or a line break. -/
  | lineEnd
  /-- A word begins or ends here, or, if negated, neither. -/
  | boundary (ascii negated : Bool)
  deriving DecidableEq, Repr

/-- How a repetition is tried. -/
inductive Greed where
  | greedy
  | lazy
  /-- As often as possible, and never less often. -/
  | possessive
  deriving DecidableEq, Repr

/-- The least and the greatest length of the texts that something describes. -/
structure Width where
  least : Nat
  /-- There is no greatest length if this is nothing. -/
  greatest : Option Nat
  deriving DecidableEq, Repr

namespace Width

def exactly (n : Nat) : Width := ⟨n, some n⟩

/-- One after another. -/
def plus (v w : Width) : Width :=
  ⟨v.least + w.least, do return (← v.greatest) + (← w.greatest)⟩

/-- One or the other. -/
def either (v w : Width) : Width :=
  ⟨min v.least w.least, do return max (← v.greatest) (← w.greatest)⟩

/-- Several times. -/
def times (w : Width) (low : Nat) (high : Option Nat) : Width :=
  { least := w.least * low
    greatest := if w.greatest = some 0 then some 0 else do return (← w.greatest) * (← high) }

/-- The length, if there is only one. -/
def fixed? (w : Width) : Option Nat :=
  if w.greatest = some w.least then some w.least else none

end Width

end Pattern

open Pattern in
inductive Pattern where
  | empty
  | oneOf (cs : CharSet) (sense : Sense)
  | anchor (a : Anchor)
  | seq (first second : Pattern)
  | alt (first second : Pattern)
  | loop (greed : Greed) (low : Nat) (high : Option Nat) (body : Pattern)
  /-- What matches is remembered under a number. -/
  | group (number : Nat) (body : Pattern)
  /-- Only the first way to match counts. -/
  | atomic (body : Pattern)
  /-- The same text as a group has matched. -/
  | again (number : Nat) (sense : Sense)
  /-- One of two patterns, depending on whether a group has matched. -/
  | given (number : Nat) (yes no : Pattern)
  /-- A pattern matches from here on, or, if negated, does not. -/
  | ahead (negated : Bool) (body : Pattern)
  /-- A pattern matches so many code points before, or, if negated, does not. -/
  | behind (negated : Bool) (distance : Nat) (body : Pattern)
  deriving Repr

namespace Pattern

def code (n : Nat) (sense : Sense) : Pattern :=
  .oneOf ⟨[.range n n], false⟩ sense

/-- The lengths of the texts that a pattern describes, given those of the groups before it. -/
def width (groups : Nat → Width) : Pattern → Width
  | .empty | .anchor _ | .ahead .. | .behind .. => .exactly 0
  | .oneOf .. => .exactly 1
  | .seq p q => (p.width groups).plus (q.width groups)
  | .alt p q => (p.width groups).either (q.width groups)
  | .loop _ low high p => (p.width groups).times low high
  | .group _ p | .atomic p => p.width groups
  | .again n _ => groups n
  | .given _ p q => (p.width groups).either (q.width groups)

end Pattern

end LabelPress
