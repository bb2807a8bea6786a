import LabelPress.Fault
import LabelPress.Schema.Check

/-!
# Settings

The size of a label, the resolution of its printer and the encoding of its commands. Settings are
made from named values that meet a schema; `Settings.merged` lets later values take the place of
earlier ones and checks the whole again. Numbers keep the kind in which they were given.
-/

namespace LabelPress

structure Settings where
  /-- The width in millimetres. -/
  width : Number := .float 101.6
  /-- The height in millimetres. -/
  height : Number := .float 152.4
  /-- Dots in a millimetre. -/
  resolution : Number := .int 8
  encoding : String := "utf-8"

namespace Settings

def resolutions : List Number := [.int 6, .int 8, .int 12, .int 24]

/-- The demand on a length. -/
def lengthSchema : Schema := .all [
  .type [.number],
  .limit { measure := .value, relation := .above, bound := .int 0 }]

/-- The names of the settings, with the demands on their values. -/
def fields : List (Text × Schema) := [
  ("width_mm", lengthSchema),
  ("height_mm", lengthSchema),
  ("dpmm", .all [.enum (resolutions.map .number)]),
  ("encoding", .all [
    .type [.string],
    .limit { measure := .length, relation := .atLeast, bound := .int 1 }])]

/-- The demands on settings. -/
def schema : Schema := .all [
  .type [.object],
  .only ⟨fields.map (·.1), none⟩,
  .properties fields]

def members (s : Settings) : List (Text × Json) := [
  ("width_mm", .number s.width),
  ("height_mm", .number s.height),
  ("dpmm", .number s.resolution),
  ("encoding", .string s.encoding)]

def toJson (s : Settings) : Json := .object s.members

/-- The number of a name, or another one. -/
def numberOr (members : List (Text × Json)) (name : Text) (default : Number) : Number :=
  match Json.lookup? members name with
  | some (.number n) => n
  | _ => default

/-- The text of a name, or another one. -/
def textOr (members : List (Text × Json)) (name default : Text) : Text :=
  match Json.lookup? members name with
  | some (.string t) => t
  | _ => default

/-- The settings of named values; what is not named has its usual value. -/
def ofMembers (library : Codec.Library) (members : List (Text × Json)) : Except Fault Settings :=
  match schema.check (.object members) with
  | some finding => .error (.ofFinding finding)
  | none =>
    let encoding := textOr members "encoding" "utf-8"
    match Encoding.ofName library encoding with
    | .error fault => .error (.encoding encoding fault)
    | .ok e => .ok {
        width := numberOr members "width_mm" (.float 101.6)
        height := numberOr members "height_mm" (.float 152.4)
        resolution := numberOr members "dpmm" (.int 8)
        encoding := e.name }

/-- The value of a name and its value, if a value is such a pair. -/
def pairOf (x : Json) : Except Fault (Json × Json) :=
  let two (xs : List Json) :=
    match xs with
    | [a, b] => .ok (a, b)
    | _ => .error (.value .wrongLength)
  match x with
  | .array xs => do
    let (name, value) ← two xs
    match name with
    | .array _ | .object _ => .error (.value .wrongKind)
    | _ => return (name, value)
  | .string t => two (t.points.map fun p => .string (.singleton p))
  | .object ms => two (ms.map fun m => .string m.1)
  | _ => .error (.value .wrongKind)

/--
Pairs with one of them set; equal numbers are one name, and so are `true` and one. What is not a
number is one name too.
-/
def insertPair (pairs : List (Json × Json)) (name value : Json) : List (Json × Json) :=
  let isName (other : Json) :=
    match name.number?, other.number? with
    | some m, some n => m.same n || (m.isNaN && n.isNaN)
    | _, _ => name.same other
  if pairs.any (isName ·.1) then pairs.map fun p => if isName p.1 then (p.1, value) else p
  else pairs ++ [(name, value)]

/-- The pairs of a list of pairs. -/
def pairsOf (xs : List Json) : Except Fault (List (Json × Json)) :=
  xs.foldlM (fun pairs x => do
    let (name, value) ← pairOf x
    return insertPair pairs name value) []

/--
What is wrong with settings that are a list of pairs and not an object. The pairs are checked as if
they were members; then the list fails because it has no names to ask for.
-/
def pairsFault (xs : List Json) : Fault :=
  match pairsOf xs with
  | .error fault => fault
  | .ok pairs =>
    let extras := (pairs.map (·.1)).filter fun name =>
      !(fields.any fun f => name.same (.string f.1))
    if extras.isEmpty then
      match schema.check (.object (pairs.map fun p => (p.1.plain, p.2))) with
      | some finding => .ofFinding finding
      | none => .value .missingPart
    else .violation ⟨[], .unexpected (Schema.sorted extras)⟩

def ofJson (library : Codec.Library) : Json → Except Fault Settings
  | .object members => ofMembers library members
  | .array xs => .error (pairsFault xs)
  | .string t => .error (.value (if t.isEmpty then .missingPart else .wrongLength))
  | _ => .error (.value .wrongKind)

/-- Named values, those that are nothing left out. -/
def given (overrides : List (Text × Json)) : List (Text × Json) :=
  overrides.filter fun
    | (_, .null) => false
    | _ => true

/-- Settings with other values for some names. The name `self` is taken and cannot be given. -/
def merged (library : Codec.Library) (s : Settings) (overrides : List (Text × Json)) :
    Except Fault Settings :=
  if overrides.any (·.1 == "self") then .error .wrongArguments
  else ofMembers library ((given overrides).foldl (fun ms m => Json.insert ms m.1 m.2) s.members)

end Settings

end LabelPress
