import LabelPress.Barcode.Code128

/-!
# The box of a barcode

How much room a barcode takes on the page, in points: its bars with a quiet zone on both sides, and
below them, if wanted, a line with the content in Courier. The box is the extent of all that is
drawn, so bars of negative size take room as well.
-/

namespace LabelPress.Barcode

/-- The width of a character in thousandths of the font size; control characters are wider. -/
def charUnits (c : Char) : Nat :=
  if c < ' ' || c == '\x7f' then 761 else 600

/-- The width of a text of size 12. -/
def textWidth (content : List Char) : Float :=
  (content.foldl (fun n c => n + charUnits c) 0).toFloat * 0.001 * 12.0

/-- The number of modules: eleven for a symbol and thirteen for the stop. -/
def moduleCount (content : List Char) : Nat :=
  11 * (symbols content).length + 13

/-- The greater of two numbers, the first one if they do not compare. -/
def greater (x y : Float) : Float :=
  if x < y then y else x

/-- The lesser of two numbers, the first one if they do not compare. -/
def lesser (x y : Float) : Float :=
  if y < x then y else x

/-- A stretch between two numbers. -/
structure Stretch where
  low : Float
  high : Float

namespace Stretch

/-- A stretch that reaches as far as two more numbers. -/
def reach (s : Stretch) (low high : Float) : Stretch :=
  ⟨lesser s.low low, greater s.high high⟩

/-- The stretch from the least to the greatest of some numbers. -/
def around (x : Float) (xs : List Float) : Stretch :=
  xs.foldl (fun s y => s.reach y y) ⟨x, x⟩

def size (s : Stretch) : Float :=
  s.high - s.low

end Stretch

/-- The quiet zone on each side, which is ten modules wide or a quarter of an inch. -/
def quietZone (module : Float) : Float :=
  greater 18.0 (10.0 * module)

/--
What the bars and the quiet zones take in width. The first and the last bar are two modules wide
each, and with a negative module the bars go to the left.
-/
def across (content : List Char) (module : Float) : Stretch :=
  let count := moduleCount content
  let quiet := quietZone module
  let all : Stretch := ⟨0.0, count.toFloat * module + 2.0 * quiet⟩
  all.reach (quiet + (count - 2).toFloat * module) (quiet + 2.0 * module)

/-- The size of the line of text, which is made smaller if it would be wider than the bars. -/
def textSize (content : List Char) (module : Float) : Float :=
  let bars := (moduleCount content).toFloat * module
  let width := textWidth content
  if bars < width then 12.0 * (bars / width) else 12.0

/-- What the bars, and the line of text if there is one, take in height. -/
def along (content : List Char) (height module : Float) (withText : Bool) : Stretch :=
  let bars : Stretch := ⟨0.0, height⟩
  if withText then
    let size := textSize content module
    let base := -1.07 * 0.629 * size
    bars.reach (base - 0.2 * size) (base + size)
  else bars

/--
The width and height of the drawing. Its corners are placed one by one, and a corner with one
infinite coordinate has no other.
-/
def box (content : List Char) (height module : Float) (withText : Bool) : Float × Float :=
  let x := across content module
  let y := along content height module withText
  let corners := [(x.low, y.high), (x.high, y.low), (x.high, y.high)]
  let placed (a b : Float) := 1.0 * a + 0.0 * b + 0.0
  let width := Stretch.around (placed x.low y.low) (corners.map fun (a, b) => placed a b)
  let height := Stretch.around (placed y.low x.low) (corners.map fun (a, b) => placed b a)
  (width.size, height.size)

end LabelPress.Barcode
