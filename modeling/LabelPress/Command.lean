import LabelPress.Text.Capital

/-!
# Commands

A command as a token writes it: its mark, its name in capitals and its arguments, which are
separated by commas. Names have two characters, except that of the font command `A`, whose second
character belongs to the first argument; `A@` is a command of its own.
-/

namespace LabelPress

structure Command where
  /-- The code point before the name; a command from an empty token has none. -/
  mark : Option CodePoint := none
  name : Text
  args : List Text
  deriving DecidableEq, Repr

namespace Command

/-- The texts between the commas; no text at all holds no argument. -/
def splitArgs (t : Text) : List Text :=
  if t.isEmpty then [] else t.splitOn ','

def joinArgs (args : List Text) : Text :=
  Text.intercalate "," args

def parse (token : Text) : Command :=
  let mark := token.points.head?
  let code := ((token.drop 1).take 2).upper
  if code.points.head? = some (.char 'A') ∧ code ≠ "A@" then
    { mark, name := "A", args := splitArgs (token.drop 2) }
  else { mark, name := code, args := splitArgs (token.drop 3) }

def render (c : Command) : Text :=
  ⟨c.mark.toList⟩ ++ c.name ++ joinArgs c.args

end Command

end LabelPress
