import LabelPress.Drawing.Payload
import LabelPress.Schema.Check
import LabelPress.Surface

/-!
# Playing a recorded drawing

A recorded drawing is checked as a whole and then played entry by entry on a surface. An entry that
cannot be made a call ends the playback, and so does a call that the surface refuses.
-/

namespace LabelPress.Playback

/-- The call of an entry with a line colour: the colour is looked at before the other arguments. -/
def rectCall (args : List (Text × Json)) : Except Fault Call :=
  match Json.lookup? args "stroke_color" with
  | none => .error .wrongArguments
  | some x =>
    if args.any (·.1 == "self") then .error .wrongArguments
    else
      match Colour.ofJson x with
      | .error e => .error (.value e)
      | .ok colour =>
        let named := args.map fun (name, x) =>
          (name, if name == "stroke_color" then .colour colour else Argument.value x)
        match Primitive.drawRect.callNamed? named with
        | some c => .ok c
        | none => .error .wrongArguments

/-- The call of an entry with a formatting. -/
def barcodeCall (args : List (Text × Json)) : Except Fault Call :=
  match Primitive.drawBarcode.callNamed? (args.map fun (name, x) => (name, .value x)) with
  | some (.drawBarcode content (.value (.object members))) =>
    match Formatting.ofMembers? members with
    | some f => .ok (.drawBarcode content (.formatting f))
    | none => .error .wrongArguments
  | _ => .error .wrongArguments

def call (p : Primitive) (args : List (Text × Json)) : Except Fault Call :=
  match p with
  | .drawRect => rectCall args
  | .drawBarcode => barcodeCall args
  | _ =>
    match p.callNamed? (args.map fun (name, x) => (name, .value x)) with
    | some c => .ok c
    | none => .error .wrongArguments

/-- The primitive of a name, which may be any value. -/
def primitive (name : Json) : Except Fault Primitive :=
  match name with
  | .array _ | .object _ => .error (.value .wrongKind)
  | .string t =>
    match Primitive.ofName? t with
    | some p => .ok p
    | none => .error (.playback (.unknownCommand t))
  | x => .error (.playback (.unknownCommand x.plain))

def entryCall (entry : Json) : Except Fault Call :=
  match entry with
  | .object members =>
    match Json.lookup? members "name" with
    | none => .error (.playback .nameless)
    | some name =>
      match (Json.lookup? members "args").getD (.object []) with
      | .object args => do call (← primitive name) args
      | _ => .error (.playback .unnamedArguments)
  | _ => .error (.value .wrongKind)

def playEntry (entry : Json) (s : Surface) : Outcome Surface :=
  match entryCall entry with
  | .ok c => s.draw c
  | .error fault => .refused s fault

def playAll : List Json → Surface → Outcome Surface
  | [], s => .done s
  | e :: es, s => (playEntry e s).andThen (playAll es)

/-- Plays a list of entries that has not been checked. -/
def execute (commands : Json) (s : Surface) : Outcome Surface :=
  match commands.elements? with
  | some entries => playAll entries s
  | none => .refused s (.value .wrongKind)

/-- Plays a recorded drawing, if it is one. -/
def run (payload : Json) (s : Surface) : Outcome Surface :=
  match Drawing.schema.check payload with
  | some finding => .refused s (.ofFinding finding)
  | none => execute ((payload.get? "commands").getD .null) s

end LabelPress.Playback
