import LabelPress.Barcode.Box
import LabelPress.Fault
import LabelPress.Surface.Instruction
import LabelPress.Text.Capital

/-!
# Canvases

A canvas is what a page is drawn on. A page gives it instructions, and asks it for two measures: how
far a font rises, and how large the drawing of a barcode is. Nothing about pages depends on what these
are, or on which instructions are carried out, unless it says so.

The standard canvas (`Canvas.standard`) writes the numbers of an instruction one after another, and
stops at the first that has no numeral: what is not a number is unsuitable, and an infinite length is
boundless. It knows fonts by name, and makes barcodes from what Code 128 has symbols for.
-/

namespace LabelPress

structure Canvas where
  /-- Why an instruction is refused, if it is, given the number of instructions before. -/
  refuses : Nat → Instruction → Option CanvasFault
  /-- How far a font rises above the line, in thousandths of its size, if there is such a font. -/
  ascent (fontName : Json) : Except CanvasFault Float
  /-- The width and height of the drawing of a barcode that has been made. -/
  drawingSize (content : Argument) (height module : Float) (withText : Json) : Float × Float

namespace Canvas

/-- The fonts there are, and how far each rises above the line, in thousandths of its size. -/
def ascents : List (String × Float) := [
  ("Courier", 629.0),
  ("Courier-Bold", 626.0),
  ("Courier-Oblique", 629.0),
  ("Courier-BoldOblique", 626.0),
  ("Helvetica", 718.0),
  ("Helvetica-Bold", 718.0),
  ("Helvetica-Oblique", 718.0),
  ("Helvetica-BoldOblique", 718.0),
  ("Times-Roman", 683.0),
  ("Times-Bold", 676.0),
  ("Times-Italic", 683.0),
  ("Times-BoldItalic", 699.0),
  ("Symbol", 0.0),
  ("ZapfDingbats", 0.0)]

/-- How far a font of that name rises above the line. -/
def ascentOf (fontName : Json) : Except CanvasFault Float :=
  match fontName with
  | .array _ | .object _ => .error .noName
  | .string name =>
    match ascents.find? (·.1 == name) with
    | some (_, ascent) => .ok ascent
    | none => .error .unknownFont
  | _ => .error .unknownFont

def lengthFault? (x : Float) : Option CanvasFault :=
  if x.isNaN then some .unsuitable
  else if x.isInf then some .boundless
  else none

/-- Why a row of numbers is not written. -/
def rowFault? (xs : List Float) : Option CanvasFault :=
  xs.findSome? lengthFault?

/-- The words that are a condition where a barcode is asked for, in capitals. -/
def conditionWords : List String := ["YES", "NO", "TRUE", "FALSE"]

/-- Whether a value is a condition where a barcode is asked for. -/
def isCondition : Json → Bool
  | .string t => conditionWords.any fun (word : String) => word == t.upper
  | x =>
    match x.number? with
    | some n => n.same (.int 0) || n.same (.int 1)
    | none => false

/-- The text that a content stands for: a text, an integer written out, or a colour by its name. -/
def contentText? : Argument → Option Text
  | .value (.string t) => some t
  | .value (.number (.int n)) => some (.ofChars (Decimal.integer n))
  | .value (.bool true) => some "True"
  | .value _ | .formatting _ => none
  | c => some c.plain

def barcodeFault? (content : Argument) (withText : Json) : Option CanvasFault :=
  match contentText? content with
  | none => some .missingPart
  | some text =>
    if !isCondition withText then some .missingPart
    else if text.chars?.any Barcode.isEncodable then none
    else some .unsuitable

/-- Why an instruction cannot be written, whatever was written before. -/
def instructionFault? : Instruction → Option CanvasFault
  | .setFont name size =>
    match ascentOf name with
    | .error fault => some fault
    | .ok _ => rowFault? [size, size * 1.2]
  | .drawString x y (.string _) => rowFault? [x, y]
  | .drawString .. => some .missingPart
  | .setLineWidth w => rowFault? [w]
  | .rectangle x y w h => rowFault? [x, y, w, h]
  | .translate x y => rowFault? [x, y]
  | .save w h (.string _) => rowFault? [w, h]
  | .save .. => some .unsuitable
  | .makeBarcode content _ _ withText => barcodeFault? content withText
  | .drawOn x y height module => (rowFault? [x, y]).or (rowFault? [module, height])
  | _ => none

/-- The canvas that draws all text, and all barcodes that Code 128 has symbols for. -/
def standard : Canvas where
  refuses _ i := instructionFault? i
  ascent := ascentOf
  drawingSize content height module withText :=
    Barcode.box (((contentText? content).bind (·.chars?)).getD []) height module withText.isTruthy

end Canvas

end LabelPress
