import LabelPress.Json.Basic

/-!
# The schema of schemas

The well-known schema that all schemas meet, as a JSON value, and its address. A schema may refer to
it or to parts of it.
-/

namespace LabelPress.Schema.Standard

def address : String := "http://json-schema.org/draft-07/schema"

def one (keyword : Text) (x : Json) : Json :=
  .object [(keyword, x)]

/-- Values of the kind of that name. -/
def kind (name : Text) : Json :=
  one "type" (.string name)

/-- What stands at an address. -/
def reference (address : Text) : Json :=
  one "$ref" (.string address)

def schema : Json :=
  reference "#"

/-- What is defined under a name. -/
def defined (name : Text) : Json :=
  reference ("#/definitions/" ++ name)

def formatted (format : Text) : Json :=
  .object [("type", .string "string"), ("format", .string format)]

/-- Objects whose members are schemas. -/
def schemaMembers : Json :=
  .object [("type", .string "object"), ("additionalProperties", schema), ("default", .object [])]

/-- Truth values, usually `false`. -/
def flag : Json :=
  .object [("type", .string "boolean"), ("default", .bool false)]

/-- The names of the kinds of values. -/
def kindNames : List Json :=
  ["array", "boolean", "integer", "null", "number", "object", "string"].map fun (name : String) =>
    .string name

def definitions : List (Text × Json) := [
  ("schemaArray", .object [("type", .string "array"), ("minItems", .int 1), ("items", schema)]),
  ("nonNegativeInteger", .object [("type", .string "integer"), ("minimum", .int 0)]),
  ("nonNegativeIntegerDefault0",
    one "allOf" (.array [defined "nonNegativeInteger", one "default" (.int 0)])),
  ("simpleTypes", one "enum" (.array kindNames)),
  ("stringArray", .object [
    ("type", .string "array"), ("items", kind "string"), ("uniqueItems", .bool true),
    ("default", .array [])])]

/-- What the members are that say something about a schema. -/
def remarks : List (Text × Json) := [
  ("$id", formatted "uri-reference"),
  ("$schema", formatted "uri"),
  ("$ref", formatted "uri-reference"),
  ("$comment", kind "string"),
  ("title", kind "string"),
  ("description", kind "string"),
  ("default", .bool true),
  ("readOnly", flag),
  ("examples", .object [("type", .string "array"), ("items", .bool true)])]

/-- What the members are that demand something of numbers, texts, items and member names. -/
def sizes : List (Text × Json) := [
  ("multipleOf", .object [("type", .string "number"), ("exclusiveMinimum", .int 0)]),
  ("maximum", kind "number"),
  ("exclusiveMaximum", kind "number"),
  ("minimum", kind "number"),
  ("exclusiveMinimum", kind "number"),
  ("maxLength", defined "nonNegativeInteger"),
  ("minLength", defined "nonNegativeIntegerDefault0"),
  ("pattern", formatted "regex"),
  ("additionalItems", schema),
  ("items", .object [
    ("anyOf", .array [schema, defined "schemaArray"]), ("default", .bool true)]),
  ("maxItems", defined "nonNegativeInteger"),
  ("minItems", defined "nonNegativeIntegerDefault0"),
  ("uniqueItems", flag),
  ("contains", schema),
  ("maxProperties", defined "nonNegativeInteger"),
  ("minProperties", defined "nonNegativeIntegerDefault0"),
  ("required", defined "stringArray")]

/-- What the members are that demand something of members, values and kinds, or join schemas. -/
def structures : List (Text × Json) := [
  ("additionalProperties", schema),
  ("definitions", schemaMembers),
  ("properties", schemaMembers),
  ("patternProperties", .object [
    ("type", .string "object"), ("additionalProperties", schema),
    ("propertyNames", one "format" (.string "regex")), ("default", .object [])]),
  ("dependencies", .object [
    ("type", .string "object"),
    ("additionalProperties", one "anyOf" (.array [schema, defined "stringArray"]))]),
  ("propertyNames", schema),
  ("const", .bool true),
  ("enum", .object [("type", .string "array"), ("items", .bool true)]),
  ("type", one "anyOf" (.array [
    defined "simpleTypes",
    .object [
      ("type", .string "array"), ("items", defined "simpleTypes"), ("minItems", .int 1),
      ("uniqueItems", .bool true)]])),
  ("format", kind "string"),
  ("contentMediaType", kind "string"),
  ("contentEncoding", kind "string"),
  ("if", schema),
  ("then", schema),
  ("else", schema),
  ("allOf", defined "schemaArray"),
  ("anyOf", defined "schemaArray"),
  ("oneOf", defined "schemaArray"),
  ("not", schema)]

def ofSchemas : Json :=
  .object [
    ("$schema", .string (address ++ "#")),
    ("$id", .string (address ++ "#")),
    ("title", .string "Core schema meta-schema"),
    ("definitions", .object definitions),
    ("type", .array [.string "object", .string "boolean"]),
    ("properties", .object (remarks ++ sizes ++ structures)),
    ("default", .bool true)]

end LabelPress.Schema.Standard
