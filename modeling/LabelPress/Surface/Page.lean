import LabelPress.Outcome
import LabelPress.Surface.Canvas
import LabelPress.Surface.Geometry

/-!
# Pages

A page is a surface that gives instructions to a canvas, in points from the lower left corner. The
instructions are kept as data, in order; the last of a refused call is the one that the canvas did
not carry out.

A barcode is turned about the cursor, and its drawing is moved so that the corner that is then the
top left one lies on the cursor. Whatever is saved for that is restored before the call ends.
-/

namespace LabelPress

/-- The points in a millimetre. -/
def millimetre : Float := 2.834645669291339

/-- The orientation that a value stands for; what has parts can stand for none. -/
def Orientation.ofJson : Json → Except ValueFault Orientation
  | .string t => .ok (ofCode t.toString)
  | .array _ | .object _ => .error .wrongKind
  | _ => .ok normal

structure Page where
  fontName : Json := .string "Helvetica-Bold"
  creator : Json := .string "zpl-interpreter"
  canvas : Canvas := .standard
  fontSize : Float := 12.0
  width : Float := 0.0
  height : Float := 0.0
  x : Float := 0.0
  y : Float := 0.0
  /-- Whether a document has been begun. -/
  opened : Bool := false
  instructions : Array Instruction := #[]
  /-- The instructions of the finished document, once there is one. -/
  output : Option (Array Instruction) := none

namespace Page

/-- The page with one more instruction, whatever the canvas makes of it. -/
def tell (i : Instruction) (p : Page) : Page :=
  { p with instructions := p.instructions.push i }

/-- Gives an instruction. -/
def perform (i : Instruction) (p : Page) : Outcome Page :=
  match p.canvas.refuses p.instructions.size i with
  | none => .done (p.tell i)
  | some fault => .refused (p.tell i) (.canvas fault)

def performAll : List Instruction → Page → Outcome Page
  | [], p => .done p
  | i :: is, p => (p.perform i).andThen (performAll is)

/-- Goes on with a document that has been begun. -/
def onDocument (p : Page) (f : Page → Outcome Page) : Outcome Page :=
  if p.opened then f p else .refused p .noDocument

/-- The height above the lower edge, in points, of what is `y` millimetres below the upper edge. -/
def rise (p : Page) (y : Float) : Float :=
  Geometry.rise millimetre p.height y

def createDocument (width height : Json) (p : Page) : Outcome Page :=
  .withValue p (do return (← width.toFloat, ← height.toFloat)) fun (width, height) =>
    let p := { p with width, height }
    (p.perform (.canvas (width * millimetre) (height * millimetre))).andThen fun p =>
      { p with opened := true }.performAll [.setCreator p.creator, .setFont p.fontName p.fontSize]

def moveCursor (x y : Json) (p : Page) : Outcome Page :=
  .ofValue p do
    let x ← x.toFloat
    let y ← y.toFloat
    return { p with x, y }

/-- Sets the size of the font; the size is kept even if no document has been begun. -/
def setFontSize (points : Json) (p : Page) : Outcome Page :=
  .withValue p points.toFloat fun fontSize =>
    { p with fontSize }.onDocument (·.perform (.setFont p.fontName fontSize))

/-- Draws a text whose top left corner is the cursor. -/
def drawText (text : Argument) (p : Page) : Outcome Page :=
  match p.canvas.ascent p.fontName with
  | .error fault => .refused p (.canvas fault)
  | .ok ascent =>
    p.onDocument fun p =>
      let drop := ascent * p.fontSize / 1000.0
      p.performAll [.fillBlack, .drawString (p.x * millimetre) (p.rise p.y - drop) text.toJson]

/-- The instruction for a rectangle given by its top left corner. -/
def rectangle (x y width height : Json) (p : Page) : Except ValueFault Instruction := do
  let x ← x.factor
  let bottom ← y.plus height
  let bottom ← bottom.toFloat
  let w ← width.factor
  let h ← height.factor
  let f := Geometry.frame millimetre p.height x bottom w h
  return .rectangle f.x f.y f.width f.height

def drawRect (x y width height thickness : Json) (ink : Argument) (p : Page) : Outcome Page :=
  p.onDocument fun p =>
    .withValue p ink.toColour fun c =>
      (p.perform (.strokeColour c)).andThen fun p =>
        .withValue p thickness.factor fun t =>
          (p.perform (.setLineWidth (t * millimetre))).andThen fun p =>
            .withValue p (p.rectangle x y width height) p.perform

/-- Puts a barcode with a drawing of that size on the page at the cursor. -/
def place (o : Orientation) (width height barHeight module : Float) (p : Page) : Outcome Page :=
  let g := Geometry.placement Float.ofInt millimetre p.height p.x p.y o width height
  (p.perform .saveState).andThen fun p =>
    (p.performAll [.translate g.originX g.originY, .rotate g.degrees,
      .drawOn g.x g.y barHeight module]).afterwards (·.perform .restoreState)

def drawFormatted (content : Argument) (f : Formatting) (p : Page) : Outcome Page :=
  .withValue p (do return (← f.height.factor, ← f.moduleWidth.factor))
    fun (height, module) =>
      let height := height * millimetre
      let module := module * millimetre
      (p.perform (.makeBarcode content height module f.printBelow)).andThen fun p =>
        let (w, h) := p.canvas.drawingSize content height module f.printBelow
        let p := p.tell (.drawing w h)
        .withValue p (Orientation.ofJson f.orientation) fun o =>
          p.onDocument (place o w h height module)

/-- What a fault says about a content that is to be drawn as a barcode. -/
def contentFault (content : Json) : Fault → Fault
  | .canvas .unsuitable => .argument ⟨"BC", "content", .outside content .encodable⟩
  | fault => fault

/-- Draws a barcode; one without content is left out. -/
def drawBarcode (content style : Argument) (p : Page) : Outcome Page :=
  if !content.toJson.isTruthy then { state := p, notes := [.noContent] }
  else
    match style with
    | .formatting f =>
      let above : Outcome Page :=
        { state := p, notes := if f.printAbove.isTruthy then [.lineAbove] else [] }
      above.andThen fun p =>
        (drawFormatted content f p).recast (contentFault content.toJson)
    | _ => .refused p (.value .missingPart)

def draw (c : Call) (p : Page) : Outcome Page :=
  match c with
  | .createDocument width height => createDocument width height p
  | .moveCursor x y => moveCursor x y p
  | .setFontSize points => setFontSize points p
  | .drawText text => drawText text p
  | .drawRect x y width height thickness ink => drawRect x y width height thickness ink p
  | .drawBarcode content style => drawBarcode content style p

/--
Finishes the document. A page that has been finished once keeps the document it had then, whatever
is drawn later.
-/
def finish (p : Page) : Page × Except Fault (Array Instruction) :=
  match p.output with
  | some output => (p, .ok output)
  | none =>
    let save : Instruction := .save (p.width * millimetre) (p.height * millimetre) p.creator
    let d := p.onDocument (performAll [.showPage, save])
    match d.fault with
    | some fault => (d.state, .error fault)
    | none =>
      let output := d.state.instructions
      ({ d.state with output := some output }, .ok output)

end Page

end LabelPress
