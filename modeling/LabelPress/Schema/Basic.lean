import LabelPress.Json.Display
import LabelPress.Pattern.Basic

/-!
# Schemas

A schema is a list of demands on a value, its members and its items. A demand may be written so that
nothing can be said about a value; such a fault lies in the schema, and it counts only where a check
reaches it.
-/

namespace LabelPress

inductive Kind where
  | object
  | array
  | string
  | number
  | integer
  | boolean
  | null
  deriving DecidableEq, Repr

namespace Kind

def all : List Kind := [.object, .array, .string, .number, .integer, .boolean, .null]

def name : Kind → String
  | .object => "object"
  | .array => "array"
  | .string => "string"
  | .number => "number"
  | .integer => "integer"
  | .boolean => "boolean"
  | .null => "null"

def ofName? (t : Text) : Option Kind :=
  all.find? (·.name == t)

/-- Whether a value is of a kind; truth values are no numbers. -/
def holds (k : Kind) (x : Json) : Bool :=
  match k, x with
  | .object, .object _ => true
  | .array, .array _ => true
  | .string, .string _ => true
  | .number, .number _ => true
  | .integer, .number (.int _) => true
  | .integer, .number (.float f) => Decimal.isWhole f
  | .boolean, .bool _ => true
  | .null, .null => true
  | _, _ => false

end Kind

/-- What a limit is about: a number itself, or the size of a text, a list or an object. -/
inductive Measure where
  | value
  | length
  | items
  | members
  deriving DecidableEq, Repr

/-- The kind of the values that have a measure. -/
def Measure.kind : Measure → Kind
  | .value => .number
  | .length => .string
  | .items => .array
  | .members => .object

/-- The measure of a value, if it is of the kind that has it. -/
def Measure.of? (m : Measure) (x : Json) : Option Number :=
  match m, x with
  | .value, .number n => some n
  | .length, .string t => some (.int t.length)
  | .items, .array xs => some (.int xs.length)
  | .members, .object ms => some (.int ms.length)
  | _, _ => none

/-- How a measure has to stand to the bound of a limit. -/
inductive Relation where
  | atLeast
  | above
  | atMost
  | below
  deriving DecidableEq, Repr

/-- Whether two numbers stand so; what is not a number stands so to every number. -/
def Relation.holds (r : Relation) (x bound : Number) : Bool :=
  match r with
  | .atLeast => !x.lt bound
  | .above => !x.le bound
  | .atMost => !bound.lt x
  | .below => !bound.le x

structure Limit where
  measure : Measure
  relation : Relation
  bound : Number
  /-- How messages show the bound. -/
  shown : Json := .number bound

namespace Limit

def table : List (String × Measure × Relation) := [
  ("minimum", .value, .atLeast),
  ("exclusiveMinimum", .value, .above),
  ("maximum", .value, .atMost),
  ("exclusiveMaximum", .value, .below),
  ("minLength", .length, .atLeast),
  ("maxLength", .length, .atMost),
  ("minItems", .items, .atLeast),
  ("maxItems", .items, .atMost),
  ("minProperties", .members, .atLeast),
  ("maxProperties", .members, .atMost)]

def keyword? (l : Limit) : Option String :=
  (table.find? fun (_, m, r) => m == l.measure && r == l.relation).map (·.1)

/-- What a keyword limits, and how. -/
def relationOf? (keyword : Text) : Option (Measure × Relation) :=
  (table.find? (·.1 == keyword)).map (·.2)

def holds (l : Limit) (x : Json) : Bool :=
  match l.measure.of? x with
  | some n => l.relation.holds n l.bound
  | none => true

/-- The limit in words, about a value that does not keep it. -/
def text (l : Limit) : String :=
  let bound := l.shown.quoted
  match l.measure, l.relation with
  | .value, .atLeast => s!"is less than the minimum of {bound}"
  | .value, .above => s!"is less than or equal to the minimum of {bound}"
  | .value, .atMost => s!"is greater than the maximum of {bound}"
  | .value, .below => s!"is greater than or equal to the maximum of {bound}"
  | m, .atLeast | m, .above =>
    if l.bound.same (.int 1) then "should be non-empty"
    else if m = .members then "does not have enough properties"
    else "is too short"
  | m, .atMost | m, .below =>
    if l.bound.same (.int 0) then "is expected to be empty"
    else if m = .members then "has too many properties"
    else "is too long"

end Limit

/-- Why a schema says nothing about a value. -/
inductive SchemaFault where
  /-- A part of the schema is of no use. -/
  | value (fault : ValueFault)
  /-- There is no such kind of value. -/
  | unknownKind
  /-- An address leads nowhere. -/
  | nowhere
  | pattern (fault : Pattern.ReadFault)
  /-- Schemas stand too deep in one another, or one address leads to the next without end. -/
  | tooDeep
  deriving DecidableEq, Repr

/-- The members that a schema describes, by name or by patterns for names. -/
structure Described where
  names : List Text
  /-- The patterns, if the schema has any or could have. -/
  patterns : Option (List Text) := none
  deriving Repr

/-- A demand on a value, or several of them in order. -/
inductive Schema where
  | all (demands : List Schema)
  /-- At least one of several schemas is met. -/
  | any (choices : List Schema)
  /-- Exactly one of several schemas is met. Each is given with its own text. -/
  | one (choices : List (Json × Schema))
  /-- A schema with this text is not met. -/
  | not (text : Json) (schema : Schema)
  /-- One of two schemas is met, and a condition says which. -/
  | cases (condition whenMet otherwise : Schema)
  /-- No value is allowed. -/
  | never
  /-- What stands at an address is met. -/
  | refer (address : Text)
  /-- A schema with an address of its own, if that is a text. -/
  | located (address : Option String) (schema : Schema)
  /-- Nothing can be said about a value. -/
  | broken (fault : SchemaFault)
  /-- Values of a kind meet a demand. -/
  | forKind (kind : Kind) (schema : Schema)
  /-- The value is of one of these kinds. A fault may stand where the next kind should. -/
  | type (kinds : List Kind) (stop : Option SchemaFault := none)
  /-- One of these values; messages show them in this way. -/
  | enum (values : List Json) (shown : Json := .array values)
  | const (value : Json)
  | limit (l : Limit)
  /-- A whole multiple of a number, which messages show in this way. -/
  | multiple (divisor : Number) (shown : Json := .number divisor)
  /-- A pattern occurs in the text. -/
  | pattern (pattern : Text)
  /-- There are members of these names, which should be texts. -/
  | required (names : List Json)
  /-- The members of these names meet these demands. -/
  | properties (schemas : List (Text × Schema))
  /-- The members in whose names a pattern occurs meet a demand. -/
  | matching (pattern : Text) (schema : Schema)
  /-- No members but those described. -/
  | only (described : Described)
  /-- All members but those described meet a demand. -/
  | others (described : Described) (schema : Schema)
  /-- The names of all members meet a demand. -/
  | memberNames (schema : Schema)
  /-- A value with a member of this name meets a demand. -/
  | whenMember (name : Text) (schema : Schema)
  /-- There are members of these names, because there is one of the other. -/
  | companions (names : List Json) (other : Text)
  | items (schema : Schema)
  /-- The first items meet one demand each. -/
  | leading (schemas : List Schema)
  /-- The items after so many meet a demand. -/
  | itemsAfter (count : Nat) (schema : Schema)
  /-- There are no items after so many. -/
  | noneAfter (count : Nat)
  /-- At least one item meets a demand. -/
  | contains (schema : Schema)
  /-- No two items are equal. -/
  | distinct

end LabelPress
