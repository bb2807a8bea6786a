import LabelPress.Json.Display

/-!
# Drawing calls

What a label asks a drawing surface to do, as data. Lengths are millimetres from the top left
corner. A recorded drawing may hold any value anywhere, so calls carry values; a surface says what
it makes of a value of the wrong kind.
-/

namespace LabelPress

inductive Colour where
  | black
  | white
  deriving DecidableEq, Repr

namespace Colour

def code : Colour → String
  | .black => "B"
  | .white => "W"

def all : List Colour := [.black, .white]

def ofCode? (t : Text) : Option Colour :=
  all.find? (·.code == t)

def rgb : Colour → Float × Float × Float
  | .black => (0.0, 0.0, 0.0)
  | .white => (1.0, 1.0, 1.0)

def ofJson : Json → Except ValueFault Colour
  | .string t =>
    match ofCode? t with
    | some c => .ok c
    | none => .error .unknownColour
  | _ => .error .unknownColour

theorem ofCode?_code (c : Colour) : ofCode? c.code = some c := by
  cases c <;> decide

end Colour

/-- How a barcode is to be drawn. -/
structure Formatting where
  symbology : Json := .string "code128"
  /-- The arguments of the command that asked for the barcode. -/
  raw : Json := .array []
  orientation : Json := .string "N"
  height : Json := .float 1.25
  moduleWidth : Json := .float 0.25
  ratio : Json := .float 3.0
  printAbove : Json := .bool false
  printBelow : Json := .bool true
  checkDigit : Json := .bool false
  mode : Json := .string "N"
  deriving Inhabited

namespace Formatting

/-- The names of the fields and the fields, in the order in which they are written. -/
def fields (f : Formatting) : List (String × Json) := [
  ("symbology", f.symbology),
  ("raw", f.raw),
  ("orientation", f.orientation),
  ("height_mm", f.height),
  ("module_width_mm", f.moduleWidth),
  ("ratio", f.ratio),
  ("print_above", f.printAbove),
  ("print_below", f.printBelow),
  ("check_digit", f.checkDigit),
  ("mode", f.mode)]

/-- A formatting with one field replaced, if it has a field of that name. -/
def set? (f : Formatting) (name : Text) (x : Json) : Option Formatting :=
  match name.toString with
  | "symbology" => some { f with symbology := x }
  | "raw" => some { f with raw := x }
  | "orientation" => some { f with orientation := x }
  | "height_mm" => some { f with height := x }
  | "module_width_mm" => some { f with moduleWidth := x }
  | "ratio" => some { f with ratio := x }
  | "print_above" => some { f with printAbove := x }
  | "print_below" => some { f with printBelow := x }
  | "check_digit" => some { f with checkDigit := x }
  | "mode" => some { f with mode := x }
  | _ => none

/-- The formatting with these fields and the usual ones elsewhere. -/
def ofMembers? (members : List (Text × Json)) : Option Formatting :=
  members.foldlM (fun f (name, x) => f.set? name x) {}

def toJson (f : Formatting) : Json :=
  .object (f.fields.map fun (name, x) => (name, x))

/-- A formatting in the notation of messages, with the names of its fields. -/
def shown (f : Formatting) : String :=
  let fields := ", ".intercalate (f.fields.map fun (name, x) => name ++ "=" ++ x.quoted)
  s!"BarcodeFormatting({fields})"

end Formatting

/--
An argument of a call: a value, or one of the two kinds of thing that are no values. Any of them may
be given anywhere.
-/
inductive Argument where
  | value (x : Json)
  | colour (c : Colour)
  | formatting (f : Formatting)

namespace Argument

abbrev text (t : Text) : Argument := .value (.string t)

/-- An argument where a value is wanted. -/
def toJson : Argument → Json
  | .value x => x
  | .colour c => .string c.code
  | .formatting f => f.toJson

/-- The colour that is meant, where a value may stand for one. -/
def toColour : Argument → Except ValueFault Colour
  | .colour c => .ok c
  | a => Colour.ofJson a.toJson

/-- An argument as running text; a colour appears by its name. -/
def plain : Argument → Text
  | .value x => x.plain
  | .colour .black => "Color.BLACK"
  | .colour .white => "Color.WHITE"
  | .formatting f => f.shown

end Argument

inductive Call where
  | createDocument (width height : Json)
  | moveCursor (x y : Json)
  | setFontSize (points : Json)
  | drawText (text : Argument)
  | drawRect (x y width height thickness : Json) (ink : Argument)
  | drawBarcode (content style : Argument)

end LabelPress
