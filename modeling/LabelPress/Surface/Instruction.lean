import LabelPress.Decimal.Fixed
import LabelPress.Drawing.Basic

/-!
# Instructions to a canvas

What a page tells the canvas on which it is drawn, as data and as JSON. Lengths are points, counted
from the lower left corner.
-/

namespace LabelPress

inductive Instruction where
  | canvas (width height : Float)
  /-- Says by what the document is made, which should be a text. -/
  | setCreator (creator : Json)
  | setFont (name : Json) (size : Float)
  | fillBlack
  | drawString (x y : Float) (text : Json)
  | strokeColour (c : Colour)
  | setLineWidth (width : Float)
  | rectangle (x y width height : Float)
  | saveState
  | translate (x y : Float)
  | rotate (degrees : Int)
  | restoreState
  | showPage
  /-- Writes the document, whose pages have that size and which is made by that. -/
  | save (width height : Float) (creator : Json)
  /-- Asks for the drawing of a barcode. -/
  | makeBarcode (content : Argument) (height module : Float) (withText : Json)
  /-- The drawing that was made. -/
  | drawing (width height : Float)
  /-- Draws a barcode whose bars have that height and whose modules have that width. -/
  | drawOn (x y height module : Float)

namespace Instruction

/-- A length with four places, as a text. -/
def rounded (x : Float) : Json :=
  .string (String.ofList (Decimal.fixed 4 x))

/-- The name of the instruction and its arguments. Lengths of barcodes are rounded. -/
def toJson (i : Instruction) : Json :=
  let row (name : String) (args : List Json) : Json := .array (.string name :: args)
  match i with
  | canvas w h => row "Canvas" [.float w, .float h]
  | setCreator name => row "setCreator" [name]
  | setFont name size => row "setFont" [name, .float size]
  | fillBlack => row "setFillColorRGB" [.int 0, .int 0, .int 0]
  | drawString x y text => row "drawString" [.float x, .float y, text]
  | strokeColour c =>
    let (r, g, b) := c.rgb
    row "setStrokeColorRGB" [.float r, .float g, .float b]
  | setLineWidth w => row "setLineWidth" [.float w]
  | rectangle x y w h => row "rect" [.float x, .float y, .float w, .float h, .int 0, .int 1]
  | saveState => row "saveState" []
  | translate x y => row "translate" [.float x, .float y]
  | rotate degrees => row "rotate" [.int degrees]
  | restoreState => row "restoreState" []
  | showPage => row "showPage" []
  | save .. => row "save" []
  | makeBarcode content height module withText =>
    row "createBarcodeDrawing"
      [.string "Code128", content.toJson, .float height, .float module, withText]
  | drawing w h => row "drawing" [rounded w, rounded h]
  | drawOn x y _ _ => row "drawOn" [rounded x, rounded y]

end Instruction

end LabelPress
