/-!
# Paths

A path is a row of names. Names that say nothing are left out: empty ones and those that are one
point. A name may end in a suffix, which begins with its last point; a point at the very beginning
or end of a name begins none.
-/

namespace LabelPress

structure Path where
  /-- What stands before the first name of an absolute path. -/
  root : String := ""
  parts : List String := []
  deriving DecidableEq, Repr

namespace Path

def names (cs : List Char) : List String :=
  ((cs.splitOn '/').map String.ofList).filter fun s => s ≠ "" ∧ s ≠ "."

/-- The path that a text writes. Two slashes at the beginning are a root of their own. -/
def ofString (s : String) : Path :=
  let cs := s.toList
  let root :=
    match cs with
    | '/' :: '/' :: '/' :: _ => "/"
    | '/' :: '/' :: _ => "//"
    | '/' :: _ => "/"
    | _ => ""
  { root, parts := names cs }

def toString (p : Path) : String :=
  if p.root = "" ∧ p.parts = [] then "." else p.root ++ "/".intercalate p.parts

def name (p : Path) : String :=
  p.parts.getLast?.getD ""

def parent (p : Path) : Path :=
  { p with parts := p.parts.dropLast }

def stem (name : List Char) : List Char :=
  let suffix := name.reverse.takeWhile (· ≠ '.')
  let stem := (name.reverse.drop (suffix.length + 1)).reverse
  if suffix.isEmpty || stem.isEmpty then name else stem

/-- The path with another suffix for its last name, if it has a name. -/
def withSuffix? (p : Path) (suffix : String) : Option Path :=
  if p.name = "" then none
  else
    let name := String.ofList (stem p.name.toList ++ suffix.toList)
    some { p with parts := p.parts.dropLast ++ [name] }

theorem length_parts_parent (p : Path) (h : p.parts ≠ []) :
    p.parent.parts.length < p.parts.length := by
  have := List.length_pos_iff.2 h
  simp only [parent, List.length_dropLast]
  omega

end Path

end LabelPress
