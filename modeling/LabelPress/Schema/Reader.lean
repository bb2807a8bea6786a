import LabelPress.Schema.Basic
import LabelPress.Uri

/-!
# Schemas from JSON

A schema written as a JSON value: a truth value, or an object whose members are demands. Members
that are no demands are passed over. A demand that is written wrongly is a broken one; it stands
among the others and counts when a check comes to it, and often only for values of the kind that it
is about.
-/

namespace LabelPress.Schema

/-- A demand on values of a kind that is of no use to them. -/
def useless (kind : Kind) (fault : ValueFault) : Schema :=
  .forKind kind (.broken (.value fault))

/-- The kinds among which a value should be, up to one that is none. -/
def kindsOf : List Json → List Kind × Option SchemaFault
  | [] => ([], none)
  | .array _ :: _ | .object _ :: _ => ([], some (.value .wrongKind))
  | .string t :: rest =>
    match Kind.ofName? t with
    | some kind => (kind :: (kindsOf rest).1, (kindsOf rest).2)
    | none => ([], some .unknownKind)
  | _ :: _ => ([], some .unknownKind)

/-- The demand that a value is of one of the kinds that are named. -/
def typeOf (x : Json) : Schema :=
  let names? :=
    match x with
    | .string _ => some [x]
    | _ => x.elements?
  match names? with
  | some names => .type (kindsOf names).1 (kindsOf names).2
  | none => .broken (.value .wrongKind)

/-- The demand for a number of which a value of some kind is a multiple, or that it keeps to. -/
def measured (kind : Kind) (x : Json) (demand : Number → Schema) : Schema :=
  match x.number? with
  | some n => demand n
  | none => useless kind .wrongKind

/-- A demand that does not itself hold schemas. -/
def simple? (keyword : Text) (x : Json) : Option Schema :=
  match keyword.toString with
  | "type" => some (typeOf x)
  | "enum" =>
    match x.elements? with
    | some values => some (.enum values x)
    | none => some (.broken (.value .wrongKind))
  | "const" => some (.const x)
  | "required" =>
    match x.elements? with
    | some names => some (.required names)
    | none => some (useless .object .wrongKind)
  | "multipleOf" => some (measured .number x fun n => .multiple n x)
  | "pattern" =>
    match x with
    | .string t => some (.pattern t)
    | _ => some (useless .string .wrongKind)
  | "uniqueItems" => if x.isTruthy then some .distinct else none
  | "$ref" => some (.broken (.value .missingPart))
  | _ => do
    let (measure, relation) ← Limit.relationOf? keyword
    return measured measure.kind x fun n => .limit ⟨measure, relation, n, x⟩

def texts (xs : List Json) : List Text :=
  xs.filterMap fun
    | .string t => some t
    | _ => none

/-- The patterns for names that a schema with these members has, if it could have any. -/
def patterns (members : List (Text × Json)) : Except SchemaFault (Option (List Text)) :=
  match Json.lookup? members "patternProperties" with
  | none => .ok none
  | some x =>
    match x.elements? with
    | none => .error (.value .wrongKind)
    | some xs =>
      let ts := texts xs
      if ts.length = xs.length then .ok (some ts) else .error (.value .wrongKind)

/-- A demand on the members that a schema with these members does not describe. -/
def aboutOthers (members : List (Text × Json)) (demand : Described → Schema) : Schema :=
  match patterns members with
  | .error fault => .forKind .object (.broken fault)
  | .ok patterns =>
    match Json.lookup? members "properties" with
    | none => demand ⟨[], patterns⟩
    | some x =>
      match x.elements? with
      | some xs => demand ⟨texts xs, patterns⟩
      | none => .memberNames (.broken (.value .wrongKind))

/-- A demand on the items that a schema with these members does not describe one by one. -/
def aboutMoreItems (members : List (Text × Json)) (demand : Nat → Schema) : Schema :=
  match Json.lookup? members "items" with
  | none | some (.object _) => .all []
  | some (.array schemas) => demand schemas.length
  | some (.string t) => demand t.length
  | some _ => useless .array .wrongKind

/-- A demand for schemas in a list, where something else stands: its elements are no schemas. -/
def unlisted (x : Json) (demand : List (Json × Schema) → Schema) : Schema :=
  match x.elements? with
  | some xs => demand (xs.map fun y => (y, .broken (.value .missingPart)))
  | none => .broken (.value .wrongKind)

/-- The address, without a fragment, that an object with these members gives to itself. -/
def memberAddress? (members : List (Text × Json)) : Except ValueFault (Option String) :=
  if members.any (·.1 == "$ref") then .ok none
  else
    match Json.lookup? members "$id" with
    | none | some .null => .ok none
    | some (.string t) =>
      .ok (if t.points.head? = some (.char '#') then none else some (Uri.stripFragment t.toString))
    | some _ => .error .missingPart

/-- A schema with the address that its members give to it, if they give one. -/
def addressed (members : List (Text × Json)) (schema : Schema) : Schema :=
  match memberAddress? members with
  | .ok none => schema
  | .ok (some address) => .located (some address) schema
  | .error _ => .located none schema

mutual

/-- The schema that a value writes. An object that refers to another schema demands only that. -/
def ofJson : Json → Schema
  | .bool true => .all []
  | .bool false => .never
  | .null | .number _ => .broken (.value .wrongKind)
  | .string _ | .array _ => .broken (.value .missingPart)
  | .object members =>
    match Json.lookup? members "$ref" with
    | some (.string address) => .refer address
    | none | some .null =>
      addressed members
        (.all (demands members (branch "then" members) (branch "else" members) members))
    | some _ => .broken (.value .missingPart)

/--
The demands among members of an object, of which all members are known and what it demands after a
condition.
-/
def demands (all : List (Text × Json)) (whenMet otherwise : Schema) :
    List (Text × Json) → List Schema
  | [] => []
  | (keyword, x) :: members =>
    let here : List Schema :=
      match keyword.toString, x with
      | "properties", .object ps => [.properties (memberSchemas ps)]
      | "properties", _ => [useless .object .missingPart]
      | "patternProperties", .object ps => matchingDemands ps
      | "patternProperties", _ => [useless .object .missingPart]
      | "additionalProperties", x =>
        if let .object _ := x then [aboutOthers all (.others · (ofJson x))]
        else if x.isTruthy then [aboutOthers all (.others · (.all []))]
        else [aboutOthers all .only]
      | "propertyNames", x => [.memberNames (ofJson x)]
      | "dependencies", .object ps => dependencies ps
      | "dependencies", _ => [useless .object .missingPart]
      | "items", .array xs => [.leading (listSchemas xs)]
      | "items", x => [.items (ofJson x)]
      | "additionalItems", x =>
        if let .object _ := x then [aboutMoreItems all (.itemsAfter · (ofJson x))]
        else if x.isTruthy then [aboutMoreItems all fun _ => .all []]
        else [aboutMoreItems all .noneAfter]
      | "contains", x => [.contains (ofJson x)]
      | "allOf", .array xs => listSchemas xs
      | "allOf", x => [unlisted x fun choices => .all (choices.map (·.2))]
      | "anyOf", .array xs => [.any (listSchemas xs)]
      | "anyOf", x => [unlisted x fun choices => .any (choices.map (·.2))]
      | "oneOf", .array xs => [.one (xs.zip (listSchemas xs))]
      | "oneOf", x => [unlisted x .one]
      | "not", x => [.not x (ofJson x)]
      | "if", x => [.cases (ofJson x) whenMet otherwise]
      | _, x => (simple? keyword x).toList
    here ++ demands all whenMet otherwise members

/-- The schema that a member of that name writes; without one, nothing is demanded. -/
def branch (name : Text) : List (Text × Json) → Schema
  | [] => .all []
  | (other, x) :: members => if other = name then ofJson x else branch name members

def memberSchemas : List (Text × Json) → List (Text × Schema)
  | [] => []
  | (name, x) :: members => (name, ofJson x) :: memberSchemas members

/-- The members as demands on members whose names match a pattern. -/
def matchingDemands : List (Text × Json) → List Schema
  | [] => []
  | (p, x) :: members => .matching p (ofJson x) :: matchingDemands members

def listSchemas : List Json → List Schema
  | [] => []
  | x :: xs => ofJson x :: listSchemas xs

/-- What the presence of members demands: other members, or a schema. -/
def dependencies : List (Text × Json) → List Schema
  | [] => []
  | (name, .array names) :: members =>
    .whenMember name (.companions names name) :: dependencies members
  | (name, x) :: members => .whenMember name (ofJson x) :: dependencies members

end

end LabelPress.Schema
