import LabelPress.Text.Capital

/-!
# Verbs

The commands that a label understands. All others are passed over.
-/

namespace LabelPress

inductive Verb where
  /-- `A`: a font for the current field. -/
  | font
  /-- `A@`: a font by its name. -/
  | namedFont
  /-- `BC`: a barcode in Code 128. -/
  | barcode
  /-- `BY`: what barcodes have in common. -/
  | barcodeDefaults
  /-- `FD`: what a field shows. -/
  | fieldData
  /-- `FO`: where a field begins. -/
  | fieldOrigin
  /-- `FS`: the end of a field. -/
  | fieldEnd
  /-- `GB`: a box or a line. -/
  | box
  /-- `LH`: the point from which all positions are counted. -/
  | home
  deriving DecidableEq, Repr

namespace Verb

def all : List Verb :=
  [font, namedFont, barcode, barcodeDefaults, fieldData, fieldOrigin, fieldEnd, box, home]

def code : Verb → String
  | font => "A"
  | namedFont => "A@"
  | barcode => "BC"
  | barcodeDefaults => "BY"
  | fieldData => "FD"
  | fieldOrigin => "FO"
  | fieldEnd => "FS"
  | box => "GB"
  | home => "LH"

/-- The verb of a command, by its name in either case. -/
def ofName? (name : Text) : Option Verb :=
  all.find? (·.code == name.upper)

end Verb

end LabelPress
