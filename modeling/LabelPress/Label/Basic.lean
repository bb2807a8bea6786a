import LabelPress.Number
import LabelPress.Text.Basic

/-!
# Labels

A label while its commands are carried out: where the current field is, what a barcode that has
been asked for will show, and what stays set from one field to the next. Commands count in dots and
surfaces in millimetres; the resolution of the printer relates the two.
-/

namespace LabelPress

inductive FieldState where
  | idle
  | fieldOpen
  /-- A barcode has been asked for, and is drawn at the end of the field. -/
  | barcodePending
  deriving DecidableEq, Repr

structure Label where
  /-- Dots in a millimetre. -/
  resolution : Option Number
  homeX : Float := 0.0
  homeY : Float := 0.0
  /-- The origin of the current field. -/
  x : Float := 0.0
  y : Float := 0.0
  state : FieldState := .idle
  /-- What the pending barcode will show. -/
  content : Text := .empty
  /-- The arguments of the command that asked for the pending barcode. -/
  barcodeArgs : List Text := []
  /-- Whether the font was chosen for the current field. -/
  fieldFont : Bool := false
  /-- The font size in points. -/
  fontSize : Float := 12.0
  /-- The width of the narrowest bar in dots. -/
  moduleWidth : Int := 2
  wideRatio : Float := 3.0
  /-- The height of barcodes that have none of their own, in dots. -/
  barcodeHeight : Int := 10

namespace Label

/-- The greatest length in dots. -/
def maxDots : Int := 32000

/-- The least font size in dots. -/
def minFontDots : Int := 10

/-- The greatest degree of rounding for the corners of a box. -/
def maxRounding : Int := 8

/-- The font size of fields that choose none, in points. -/
def defaultFontSize : Float := 12.0

/-- The points in a millimetre, as font sizes are converted. -/
def pointsPerMillimetre : Float := 2.8346456693

/-- A number of dots in millimetres. -/
def toMillimetres (l : Label) (dots : Number) : Except ValueFault Float :=
  match l.resolution with
  | some r => dots.dividedBy r
  | none => .error .wrongKind

/-- A length in millimetres in points. -/
def toPoints (millimetres : Float) : Float :=
  millimetres * pointsPerMillimetre

/-- Whether a barcode waits for the end of the field. -/
def isPending (l : Label) : Bool :=
  l.state == .barcodePending

end Label

end LabelPress
