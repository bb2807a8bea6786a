import LabelPress.Command
import LabelPress.Label.Argument
import LabelPress.Label.Step
import LabelPress.Label.Verb

/-!
# What the commands do

Each verb as a step. Most check all their arguments before they change anything; `BY` sets each
value as soon as it is checked.
-/

namespace LabelPress.Label

open Argument (get? integer extent choice ratio)

/-- The orientations, as letters. -/
def orientations : List String := ["N", "R", "I", "B"]

/-- Yes and no, as letters. -/
def yesNo : List String := ["Y", "N"]

def barcodeModes : List String := ["N", "U", "A", "D"]

/-- Goes to a point that is counted in dots from the label home. -/
def goTo (x y : Int) (l : Label) : Step :=
  let distances := do return (← l.toMillimetres (.int x), ← l.toMillimetres (.int y))
  .withValue l distances fun (dx, dy) =>
    let l := { l with x := l.homeX + dx, y := l.homeY + dy }
    .call (.moveCursor (.float l.x) (.float l.y)) l

/-- Goes back to the font of fields that choose none. -/
def resetFont (l : Label) : Step :=
  .call (.setFontSize (.float defaultFontSize))
    { l with fontSize := defaultFontSize, fieldFont := false }

/-- The font size that the arguments of `A` ask for, in dots; the width counts before the height. -/
def fontDots (args : List Text) : Except ArgumentFault Int := do
  match get? args 0 with
  | some font =>
    if 1 < font.length then
      let _ ← choice "A" "o" (some (font.drop 1)) "N" orientations
  | none => pure ()
  let height ← integer "A" "h" (get? args 1) minFontDots minFontDots maxDots
  integer "A" "w" (get? args 2) height minFontDots maxDots

/-- `A`: chooses a font size for the current field. -/
def font (args : List Text) (l : Label) : Step :=
  .withArgument l (fontDots args) fun dots =>
    .withValue l (l.toMillimetres (.int dots)) fun size =>
      let l := { l with fontSize := toPoints size, fieldFont := true }
      .call (.setFontSize (.float l.fontSize)) l

/-- Checks the arguments of `BC`. -/
def checkBarcode (args : List Text) (l : Label) : Except ArgumentFault Unit := do
  let _ ← choice "BC" "o" (get? args 0) "N" orientations
  let _ ← integer "BC" "h" (get? args 1) l.barcodeHeight 1 maxDots
  let _ ← choice "BC" "f" (get? args 2) "N" yesNo
  let _ ← choice "BC" "g" (get? args 3) "Y" yesNo
  let _ ← choice "BC" "e" (get? args 4) "N" yesNo
  let _ ← choice "BC" "m" (get? args 5) "N" barcodeModes

/-- `BC`: the field becomes a barcode. -/
def barcode (args : List Text) (l : Label) : Step :=
  .withArgument l (checkBarcode args l) fun _ =>
    .done { l with state := .barcodePending, barcodeArgs := args }

/-- `BY`: sets what barcodes have in common, one value after another. -/
def barcodeDefaults (args : List Text) (l : Label) : Step :=
  .withArgument l (integer "BY" "w" (get? args 0) l.moduleWidth 1 10) fun moduleWidth =>
    let l := { l with moduleWidth }
    .withArgument l (ratio "BY" "r" (get? args 1) l.wideRatio) fun wideRatio =>
      let l := { l with wideRatio }
      .withArgument l (integer "BY" "h" (get? args 2) l.barcodeHeight 1 maxDots)
        fun barcodeHeight => .done { l with barcodeHeight }

/-- `FD`: the data of a field, whose commas separate nothing. -/
def fieldData (args : List Text) (l : Label) : Step :=
  let text := Command.joinArgs args
  if l.isPending then .done { l with content := text } else .call (.drawText (.text text)) l

/-- `FO`: where the field begins. -/
def fieldOrigin (args : List Text) (l : Label) : Step :=
  .withArgument l (do
      return (← integer "FO" "x" (get? args 0) 0 0 maxDots,
        ← integer "FO" "y" (get? args 1) 0 0 maxDots)) fun (x, y) =>
    (goTo x y l).andThen fun l =>
      .done (if l.state = .idle then { l with state := .fieldOpen } else l)

/-- The letter at a place among the arguments of the pending barcode. -/
def letter (args : List Text) (i : Nat) (default : Text) : Text :=
  ((get? args i).getD default).upper

/-- The height of the pending barcode in dots. -/
def pendingHeight (l : Label) : Except ValueFault Int :=
  match get? l.barcodeArgs 1 with
  | none => .ok l.barcodeHeight
  | some text =>
    match Decimal.integer? text with
    | some n => .ok n
    | none => .error .notNumeric

def formatting (l : Label) : Except ValueFault Formatting := do
  let args := l.barcodeArgs
  let height ← l.toMillimetres (.int (← l.pendingHeight))
  let moduleWidth ← l.toMillimetres (.int l.moduleWidth)
  return {
    raw := .array (args.map .string)
    orientation := .string (letter args 0 "N")
    height := .float height
    moduleWidth := .float moduleWidth
    ratio := .float l.wideRatio
    printAbove := .bool (letter args 2 "N" == "Y")
    printBelow := .bool (letter args 3 "Y" == "Y")
    checkDigit := .bool (letter args 4 "N" == "Y")
    mode := .string (letter args 5 "N") }

/-- Draws the pending barcode, after which nothing is pending but the end of the field. -/
def drawPending (l : Label) : Step :=
  .withValue l l.formatting fun f =>
    ((Step.note (.barcode l.content f) l).andThen fun l =>
      .call (.drawBarcode (.text l.content) (.formatting f)) l).andThen fun l =>
        .done { l with content := .empty, barcodeArgs := [] }

/-- `FS`: ends the field. -/
def fieldEnd (l : Label) : Step :=
  (((if l.isPending then drawPending l else .done l).andThen resetFont).andThen (goTo 0 0)).andThen
    fun l => .done { l with state := .idle }

/-- The width, height and thickness of a box in dots, and its colour. -/
structure Box where
  width : Int
  height : Int
  thickness : Int
  colour : Colour

def boxOf (args : List Text) : Except ArgumentFault Box := do
  let thickness ← integer "GB" "t" (get? args 2) 1 1 maxDots
  let width ← extent "GB" "w" (get? args 0) thickness maxDots
  let height ← extent "GB" "h" (get? args 1) thickness maxDots
  let code ← choice "GB" "c" (get? args 3) "B" (Colour.all.map (·.code))
  let _ ← integer "GB" "r" (get? args 4) 0 0 maxRounding
  return { width, height, thickness, colour := (Colour.ofCode? code).getD .black }

/-- `GB`: draws a box at the field origin. -/
def box (args : List Text) (l : Label) : Step :=
  .withArgument l (boxOf args) fun b =>
    .withValue l (do
        return (← l.toMillimetres (.int b.width), ← l.toMillimetres (.int b.height),
          ← l.toMillimetres (.int b.thickness))) fun (width, height, thickness) =>
      .call (.drawRect (.float l.x) (.float l.y) (.float width) (.float height)
        (.float thickness) (.colour b.colour)) l

/-- `LH`: sets the label home. -/
def home (args : List Text) (l : Label) : Step :=
  .withArgument l (do
      return (← integer "LH" "x" (get? args 0) 0 0 maxDots,
        ← integer "LH" "y" (get? args 1) 0 0 maxDots)) fun (x, y) =>
    .withValue l (do return (← l.toMillimetres (.int x), ← l.toMillimetres (.int y)))
      fun (homeX, homeY) => .done { l with homeX, homeY }

def perform (v : Verb) (args : List Text) (l : Label) : Step :=
  match v with
  | .font => font args l
  | .namedFont => .note (.namedFont args) l
  | .barcode => barcode args l
  | .barcodeDefaults => barcodeDefaults args l
  | .fieldData => fieldData args l
  | .fieldOrigin => fieldOrigin args l
  | .fieldEnd => fieldEnd l
  | .box => box args l
  | .home => home args l

/-- Carries out the command of a name; an unknown one is noted and passed over. -/
def step (name : Text) (args : List Text) (l : Label) : Step :=
  match Verb.ofName? name with
  | some v => perform v args l
  | none => .note (.ignored name args) l

/-- A new label on a page of that size, which may be any value. -/
def start (resolution : Option Number) (width height : Json) : Step :=
  (Step.call (.createDocument width height) { resolution }).andThen resetFont

end LabelPress.Label
