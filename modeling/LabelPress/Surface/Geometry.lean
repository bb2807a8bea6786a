/-!
# Where things stand on a page

Labels are measured in millimetres from the upper left corner, and canvases in points from the lower
left one. The rules hold for numbers of any kind: pages use them for floating-point numbers, and
rational numbers show what they mean.

A drawing is put on the page by its lower left corner. It is turned about the cursor and then moved
by whole widths and heights of itself, so that its upper left corner after the turn lies on the
cursor.
-/

namespace LabelPress

/-- How a drawing is turned. -/
inductive Orientation where
  | normal
  | right
  | inverted
  | bottomUp
  deriving DecidableEq, Repr

namespace Orientation

/-- The orientation of a letter; any other text stands for the normal one. -/
def ofCode (s : String) : Orientation :=
  match s with
  | "R" => right
  | "I" => inverted
  | "B" => bottomUp
  | _ => normal

/-- The turn in degrees, counter-clockwise. -/
def degrees : Orientation → Int
  | normal => 0
  | right => -90
  | inverted => 180
  | bottomUp => 90

/-- By how many widths and heights of itself the drawing is moved after the turn. -/
def shift : Orientation → Int × Int
  | normal => (0, -1)
  | right => (0, 0)
  | inverted => (-1, 0)
  | bottomUp => (-1, -1)

end Orientation

namespace Geometry

variable {R : Type} [Add R] [Sub R] [Mul R]

/--
The height above the lower edge of a page of what is `y` below its upper edge. One unit is `scale`
points.
-/
def rise (scale pageHeight y : R) : R :=
  (pageHeight - y) * scale

/-- A rectangle by its lower left corner, its width and its height. -/
structure Frame (R : Type) where
  x : R
  y : R
  width : R
  height : R

/-- The rectangle with its left edge at `x` and its lower edge `bottom` below the upper edge. -/
def frame (scale pageHeight x bottom width height : R) : Frame R where
  x := x * scale
  y := rise scale pageHeight bottom
  width := width * scale
  height := height * scale

/-- The origin to which the canvas is moved, its turn, and the corner of the drawing then. -/
structure Placement (R : Type) where
  originX : R
  originY : R
  degrees : Int
  x : R
  y : R

/-- How a drawing of that size is put at a cursor. -/
def placement (ofInt : Int → R) (scale pageHeight cursorX cursorY : R) (o : Orientation)
    (width height : R) : Placement R where
  originX := cursorX * scale
  originY := rise scale pageHeight cursorY
  degrees := o.degrees
  x := ofInt o.shift.1 * width
  y := ofInt o.shift.2 * height

end Geometry

end LabelPress
