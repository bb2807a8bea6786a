import LabelPress.Outcome

/-!
# Traces

A trace is a surface that writes a line of text for every call. It keeps page size and cursor as
they were given, and keeps them before it finds out whether they can be written.
-/

namespace LabelPress

structure Trace where
  /-- Whether lines are also printed as they are written. -/
  echo : Bool := false
  width : Json := .float 0.0
  height : Json := .float 0.0
  x : Json := .float 0.0
  y : Json := .float 0.0
  lines : Array Text := #[]

namespace Trace

def add (t : Trace) (line : Text) : Trace :=
  { t with lines := t.lines.push line }

/-- A length with two places, as it stands in lines. -/
def length (x : Json) : Except ValueFault Text :=
  .ofChars <$> x.fixed 2

/-- The code of a colour; nothing else has one. -/
def colourCode : Argument → Except ValueFault Text
  | .colour c => .ok c.code
  | _ => .error .missingPart

def line (c : Call) : Except ValueFault Text :=
  match c with
  | .createDocument width height => do
    let w ← length width
    let h ← length height
    return "[PAGE] " ++ w ++ "x" ++ h ++ "mm"
  | .moveCursor x y => do
    let x ← length x
    let y ← length y
    return "[MOVE] " ++ x ++ "," ++ y
  | .setFontSize points => do
    let n ← points.fixed 3
    return "[FONT] " ++ Text.ofChars n ++ "pt"
  | .drawText text => return "[TEXT] " ++ text.plain
  | .drawRect x y width height thickness ink => do
    let x ← length x
    let y ← length y
    let w ← length width
    let h ← length height
    let t ← length thickness
    let c ← colourCode ink
    return "[RECT] " ++ x ++ "," ++ y ++ " " ++ w ++ "x" ++ h ++ " t=" ++ t ++ " c=" ++ c
  | .drawBarcode content style =>
    match style with
    | .formatting f => do
      let h ← length f.height
      return "[BARCODE] " ++ f.symbology.plain ++ " '" ++ content.plain ++ "' " ++
        f.orientation.plain ++ " h=" ++ h
    | _ => throw .missingPart

/-- The trace with the page size or the cursor that a call gives. -/
def place (c : Call) (t : Trace) : Trace :=
  match c with
  | .createDocument width height => { t with width, height }
  | .moveCursor x y => { t with x, y }
  | _ => t

def draw (c : Call) (t : Trace) : Outcome Trace :=
  let t := place c t
  .ofValue t do
    let line ← line c
    return t.add line

def text (t : Trace) : Text :=
  Text.intercalate "\n" t.lines.toList ++ "\n"

/-- All lines as a string; there is none if a line holds a half of a pair of 16-bit units. -/
def render (t : Trace) : Except Fault String :=
  match t.text.string? with
  | some s => .ok s
  | none => .error .unencodable

/-- What has been printed: every line, if lines are printed at all. -/
def printed (t : Trace) : String :=
  if t.echo then String.join (t.lines.toList.map (·.toString ++ "\n")) else ""

theorem toList_lines_add (t : Trace) (line : Text) :
    (t.add line).lines.toList = t.lines.toList ++ [line] :=
  Array.toList_push

end Trace

end LabelPress
