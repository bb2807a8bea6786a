import LabelPress.Pattern.Search
import LabelPress.Schema.Check
import LabelPress.Schema.Reader
import LabelPress.Schema.Standard

/-!
# What addresses lead to

A schema, the schemas inside it and the well-known ones form a library. An address with nothing
before its `#` stays with the schema that it is read in; any other is joined to the address of that
schema. Behind the `#` stands a path through the value, or a name that a schema gave to itself.

`Library.check` checks a value and follows addresses. Each takes some of the depth of a check, so
addresses that lead to each other without end are a fault. The validator made of it is
`Validator.standard`.
-/

namespace LabelPress.Schema

/-- The address, without a fragment, that a value gives to itself as a schema. -/
def ownAddress? : Json → Except ValueFault (Option String)
  | .bool _ => .ok none
  | .null | .number _ => .error .wrongKind
  | .string _ | .array _ => .error .missingPart
  | .object members => memberAddress? members

/-- The name that an object with these members gives to itself as a schema. -/
def memberName? (members : List (Text × Json)) : Except ValueFault (Option String) :=
  match Json.lookup? members "$id" with
  | none => .ok none
  | some (.string t) =>
    .ok (if t.points.head? = some (.char '#') then some (t.drop 1).toString else none)
  | some _ => .error .missingPart

/-- How the value of a keyword holds schemas. -/
inductive Holding where
  | schema
  | list
  | members
  /-- A schema or a list of them. -/
  | items
  /-- Members that are schemas if the first one is an object. -/
  | dependencies
  deriving DecidableEq, Repr

namespace Holding

def table : List (String × Holding) := [
  ("additionalItems", .schema),
  ("additionalProperties", .schema),
  ("contains", .schema),
  ("else", .schema),
  ("if", .schema),
  ("not", .schema),
  ("propertyNames", .schema),
  ("then", .schema),
  ("allOf", .list),
  ("anyOf", .list),
  ("oneOf", .list),
  ("definitions", .members),
  ("patternProperties", .members),
  ("properties", .members),
  ("items", .items),
  ("dependencies", .dependencies)]

def ofKeyword? (keyword : Text) : Option Holding :=
  (table.find? (·.1 == keyword)).map (·.2)

end Holding

/-- A schema inside another one, at its address or under its name at an address. -/
inductive Place where
  | address (address : String) (schema : Json)
  | name (address name : String) (schema : Json)

mutual

/-- The places in a schema at an address. Of two that are called the same, the later counts. -/
def places (address : String) : Json → Except ValueFault (List Place)
  | .bool _ => .ok []
  | .null | .number _ => .error .wrongKind
  | .string _ | .array _ => .error .missingPart
  | .object members => do
    let own ← memberAddress? members
    let name ← memberName? members
    let here := (own.map (Uri.join address)).getD address
    let schema := Json.object members
    let dependencies ← placesHeld here .dependencies members
    let items ← placesHeld here .items members
    let inMembers ← placesHeld here .members members
    let inLists ← placesHeld here .list members
    let inSchemas ← placesHeld here .schema members
    return (own.map fun _ => Place.address here schema).toList ++
      (name.map fun n => Place.name here n schema).toList ++
      dependencies ++ items ++ inMembers ++ inLists ++ inSchemas

/-- The places in what the members with certain keywords hold. -/
def placesHeld (address : String) (holding : Holding) :
    List (Text × Json) → Except ValueFault (List Place)
  | [] => .ok []
  | (keyword, x) :: members => do
    let later ← placesHeld address holding members
    if Holding.ofKeyword? keyword = some holding then
      let here ←
        match holding, x with
        | .schema, x => places address x
        | .list, .array xs => placesListed address xs
        | .list, .string t => if t.isEmpty then .ok [] else .error .missingPart
        | .list, .object ms => if ms.isEmpty then .ok [] else .error .missingPart
        | .list, _ => .error .wrongKind
        | .members, .object ms => placesNamed address ms
        | .members, _ => .error .missingPart
        | .items, .null => .ok []
        | .items, .array xs => placesListed address xs
        | .items, .string t => if t.isEmpty then .ok [] else .error .missingPart
        | .items, x => places address x
        | .dependencies, .null => .ok []
        | .dependencies, .object ((name, .object first) :: ms) =>
          placesNamed address ((name, .object first) :: ms)
        | .dependencies, .object _ => .ok []
        | .dependencies, _ => .error .missingPart
      return later ++ here
    else return later

/-- The places in the schemas of a list. -/
def placesListed (address : String) : List Json → Except ValueFault (List Place)
  | [] => .ok []
  | x :: xs => do
    let later ← placesListed address xs
    let here ← places address x
    return later ++ here

/-- The places in the schemas that members are. -/
def placesNamed (address : String) : List (Text × Json) → Except ValueFault (List Place)
  | [] => .ok []
  | (_, x) :: members => do
    let later ← placesNamed address members
    let here ← places address x
    return later ++ here

end

/-- A step on a path through a value. -/
inductive Step where
  | item
  | member (name : Text)
  deriving DecidableEq, Repr

/-- Whether a path from a schema leads to a schema. -/
def leadsToSchema (isObject : Bool) : List Step → Bool
  | [] => true
  | .item :: _ => false
  | .member name :: rest =>
    match Holding.ofKeyword? name, rest with
    | some .schema, rest => leadsToSchema isObject rest
    | some .items, _ | some .dependencies, _ => isObject
    | some .list, _ :: rest | some .members, _ :: rest => leadsToSchema isObject rest
    | _, _ => false

/-- Characters with what stands for a slash and for a tilde replaced by them. -/
def unescapeName : List Char → List Char
  | '~' :: '1' :: rest => '/' :: unescapeName rest
  | '~' :: '0' :: rest => '~' :: unescapeName rest
  | c :: rest => c :: unescapeName rest
  | [] => []

/-- The element of that number; a negative one counts from the end. -/
def itemAt? {A : Type} (xs : List A) (i : Int) : Option A :=
  if 0 ≤ i then xs[i.toNat]?
  else if 0 ≤ xs.length + i then xs[(xs.length + i).toNat]?
  else none

/-- The part of a value that a step with this text leads to. -/
def stepTo (text : List Char) (x : Json) : Except SchemaFault (Step × Json) :=
  let item {A : Type} (xs : List A) (f : A → Json) : Except SchemaFault (Step × Json) :=
    match Decimal.integer? (.ofChars text) with
    | none => .error (.value .notNumeric)
    | some i =>
      match itemAt? xs i with
      | some y => .ok (.item, f y)
      | none => .error .nowhere
  match x with
  | .array xs => item xs id
  | .string t => item t.points fun p => .string (.singleton p)
  | .object members =>
    let name := Text.ofChars (unescapeName text)
    match Json.lookup? members name with
    | some y => .ok (.member name, y)
    | none => .error .nowhere
  | _ => .error (.value .wrongKind)

/--
What a path leads to, and the address of the schema around it. `done` holds the steps since the last
schema with an address of its own.
-/
def followPath (address : String) (done : List Step) :
    List (List Char) → Json → Except SchemaFault (String × Json)
  | [], x => .ok (address, x)
  | text :: texts, x => do
    let (step, y) ← stepTo text x
    let done := done ++ [step]
    let isObject :=
      match y with
      | .object _ => true
      | _ => false
    if leadsToSchema isObject done then
      match ownAddress? y with
      | .error fault => .error (.value fault)
      | .ok none => followPath address done texts y
      | .ok (some own) => followPath (Uri.join address own) [] texts y
    else followPath address done texts y

/-- A schema with an address, and all that addresses in it can lead to. -/
structure Library where
  root : Json
  address : String

namespace Library

/-- The library of a schema; only objects and truth values are schemas. -/
def ofJson (x : Json) : Except ValueFault Library :=
  return ⟨x, (← ownAddress? x).getD ""⟩

def places (l : Library) : Except SchemaFault (List Place) :=
  match Schema.places l.address l.root with
  | .ok ps => .ok ps
  | .error fault => .error (.value fault)

/-- What stands at an address without a fragment. -/
def atAddress (l : Library) (address : String) : Except SchemaFault Json :=
  if address = l.address then .ok l.root
  else if address = Standard.address then .ok Standard.ofSchemas
  else do
    let found := (← l.places).reverse.findSome? fun
      | .address a schema => if a = address then some schema else none
      | .name .. => none
    match found with
    | some x => return x
    | none => throw .nowhere

/-- What has a name at an address. -/
def named (l : Library) (address name : String) : Except SchemaFault Json := do
  let found := (← l.places).reverse.findSome? fun
    | .name a n schema => if a = address ∧ n = name then some schema else none
    | .address .. => none
  match found with
  | some x => return x
  | none => throw .nowhere

/-- The address and the fragment of what is meant by an address in a schema at another one. -/
def resolve (base : String) (address : Text) : String × String :=
  match address.toString.toList with
  | '#' :: fragment => (base, String.ofList fragment)
  | cs => Uri.splitFragment (Uri.join base (String.ofList cs))

/-- What an address in a schema at another one leads to, and the address of the schema around it. -/
def lookup (l : Library) (base : String) (address : Text) :
    Except SchemaFault (String × Json) := do
  let (uri, fragment) := resolve base address
  let x ← l.atAddress uri
  match fragment.toList with
  | [] => return (uri, x)
  | '/' :: path => followPath uri [] ((Uri.unescape path).splitOn '/') x
  | _ => return (uri, ← l.named uri fragment)

/-- Whether the pattern that a text writes matches somewhere in another text. -/
def occurs (p t : Text) : Except SchemaFault Bool :=
  match Pattern.search p t with
  | .ok b => .ok b
  | .error fault => .error (.pattern fault)

/-- The addresses of the library, followed at most so many times one within another. -/
def follow (l : Library) : Nat → Follow
  | 0 => fun _ _ _ _ => .fault .tooDeep
  | n + 1 => fun depth base address x =>
    match l.lookup base address with
    | .ok (base, schema) =>
      let outside : Outside := { occurs, join := Uri.join, follow := l.follow n }
      report { outside, depth, base } false (.ofJson schema) x
    | .error fault => .fault fault

/-- What the schema of a library relies on. -/
def outside (l : Library) : Outside where
  occurs := occurs
  join := Uri.join
  follow := l.follow maxDepth

/-- What comes first of what a value does not meet of the schema. -/
def check (l : Library) (x : Json) : Option Finding :=
  (report { outside := l.outside, base := l.address } false (.ofJson l.root) x).first?

end Library

/-- The validator that follows addresses within the schema and to the schema of schemas. -/
def Validator.standard : Validator := fun schema x =>
  match Library.ofJson schema with
  | .ok library => library.check x
  | .error fault => some (.fault (.value fault))

end LabelPress.Schema
