import LabelPress.Drawing.Payload
import LabelPress.Json.Printer
import LabelPress.Outcome
import LabelPress.Schema.Check

/-!
# Recordings

A recording is a surface that writes down every call as an entry with a name and arguments. Lengths
are written as floating-point numbers, whatever they were given as; a call whose arguments are of
no use leaves the recording as it was.
-/

namespace LabelPress

structure Entry where
  name : Json
  args : List (Text × Json)

namespace Entry

/-- The entry of a primitive with these arguments in order. -/
def ofPrimitive (p : Primitive) (values : List Json) : Entry :=
  ⟨.string p.name, (p.parameters.map Text.ofString).zip values⟩

def toJson (e : Entry) : Json :=
  .object [("name", e.name), ("args", .object e.args)]

end Entry

structure Recording where
  version : Json := .string "1.0"
  source : Json := .null
  width : Float := 0.0
  height : Float := 0.0
  x : Float := 0.0
  y : Float := 0.0
  entries : Array Entry := #[]

namespace Recording

def add (r : Recording) (e : Entry) : Recording :=
  { r with entries := r.entries.push e }

/-- The entry of a call, with every length as a floating-point number. -/
def entry (c : Call) : Except ValueFault Entry :=
  match c with
  | .createDocument width height => do
    let w ← width.toFloat
    let h ← height.toFloat
    return .ofPrimitive .createDocument [.float w, .float h]
  | .moveCursor x y => do
    let x ← x.toFloat
    let y ← y.toFloat
    return .ofPrimitive .moveCursor [.float x, .float y]
  | .setFontSize points => do
    let n ← points.toFloat
    return .ofPrimitive .setFontSize [.float n]
  | .drawText text => return .ofPrimitive .drawText [text.toJson]
  | .drawRect x y width height thickness ink => do
    let x ← x.toFloat
    let y ← y.toFloat
    let w ← width.toFloat
    let h ← height.toFloat
    let t ← thickness.toFloat
    let c ← ink.toColour
    return .ofPrimitive .drawRect [.float x, .float y, .float w, .float h, .float t, .string c.code]
  | .drawBarcode content style =>
    match style with
    | .formatting f => return .ofPrimitive .drawBarcode [content.toJson, f.toJson]
    | _ => throw .wrongKind

/-- The page size and the cursor after a call that is recorded. -/
def place (c : Call) (r : Recording) : Except ValueFault Recording :=
  match c with
  | .createDocument width height => do
    let w ← width.toFloat
    let h ← height.toFloat
    return { r with width := w, height := h }
  | .moveCursor x y => do
    let x ← x.toFloat
    let y ← y.toFloat
    return { r with x, y }
  | _ => return r

def draw (c : Call) (r : Recording) : Outcome Recording :=
  .ofValue r do
    let e ← entry c
    let r ← place c r
    return r.add e

/-- Records an entry of any name. Two names are taken and cannot be used for arguments. -/
def emit (name : Json) (args : List (Text × Json)) (r : Recording) : Outcome Recording :=
  if args.any fun a => a.1 == "self" || a.1 == "command" then .refused r .wrongArguments
  else .done (r.add ⟨name, args⟩)

def names (r : Recording) : List Json :=
  r.entries.toList.map (·.name)

/-- The recording as a value; the source is left out if there is none. -/
def toJson (r : Recording) : Json :=
  let source : List (Text × Json) := if r.source.isTruthy then [("source", r.source)] else []
  .object (("version", r.version) :: ("commands", .array (r.entries.toList.map (·.toJson))) ::
    source)

def render (layout : Json.Layout) (r : Recording) : String :=
  Json.render layout r.toJson

/-- What is wrong with the recording as a recorded drawing, if something is. -/
def validate (r : Recording) : Option Fault :=
  (Drawing.schema.check r.toJson).map .ofFinding

/-- What is wrong with the recording under another schema, if the validator finds something. -/
def validateAgainst (validator : Schema.Validator) (schema : Json) (r : Recording) : Option Fault :=
  (validator schema r.toJson).map .ofFinding

theorem toList_entries_add (r : Recording) (e : Entry) :
    (r.add e).entries.toList = r.entries.toList ++ [e] :=
  Array.toList_push

end Recording

end LabelPress
