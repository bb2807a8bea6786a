import LabelPress.Drawing.Basic

/-!
# Calls from arguments

A call is made from a primitive and its arguments, given in order or by name. A call with too few,
too many or unknown arguments is no call.
-/

namespace LabelPress

inductive Primitive where
  | createDocument
  | moveCursor
  | setFontSize
  | drawText
  | drawRect
  | drawBarcode
  deriving DecidableEq, Repr

namespace Primitive

def all : List Primitive :=
  [.createDocument, .moveCursor, .setFontSize, .drawText, .drawRect, .drawBarcode]

def name : Primitive → String
  | .createDocument => "CreateDocument"
  | .moveCursor => "MoveCursor"
  | .setFontSize => "SetFontSize"
  | .drawText => "DrawText"
  | .drawRect => "DrawRect"
  | .drawBarcode => "DrawBarcode"

def ofName? (t : Text) : Option Primitive :=
  all.find? (·.name == t)

def parameters : Primitive → List String
  | .createDocument => ["width_mm", "height_mm"]
  | .moveCursor => ["x_mm", "y_mm"]
  | .setFontSize => ["points"]
  | .drawText => ["text"]
  | .drawRect => ["x_mm", "y_mm", "width_mm", "height_mm", "thickness_mm", "stroke_color"]
  | .drawBarcode => ["content", "formatting"]

/-- The call of a primitive with these arguments in order. -/
def call? (p : Primitive) (args : List Argument) : Option Call :=
  match p, args with
  | .createDocument, [w, h] => some (.createDocument w.toJson h.toJson)
  | .moveCursor, [x, y] => some (.moveCursor x.toJson y.toJson)
  | .setFontSize, [n] => some (.setFontSize n.toJson)
  | .drawText, [t] => some (.drawText t)
  | .drawRect, [x, y, w, h, t, c] =>
    some (.drawRect x.toJson y.toJson w.toJson h.toJson t.toJson c)
  | .drawBarcode, [c, f] => some (.drawBarcode c f)
  | _, _ => none

/-- The call of a primitive with arguments by name: all of them, and no others. -/
def callNamed? (p : Primitive) (args : List (Text × Argument)) : Option Call := do
  guard (args.length == p.parameters.length)
  let values ← p.parameters.mapM fun name => (args.find? (·.1 == Text.ofString name)).map (·.2)
  p.call? values

theorem ofName?_name (p : Primitive) : ofName? p.name = some p := by
  cases p <;> decide

end Primitive

end LabelPress
