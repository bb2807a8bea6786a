import LabelPress.Schema.Basic

/-!
# Violations

What a value is found to be lacking: a complaint about one demand, with the way to the value that
does not meet it.
-/

namespace LabelPress

/-- What is wrong with a value. -/
inductive Complaint where
  | allowed (x : Json)
  | type (x : Json) (kinds : List Kind)
  | enum (x values : Json)
  | const (value : Json)
  | limit (x : Json) (l : Limit)
  | multiple (x divisor : Json)
  | pattern (x : Json) (pattern : Text)
  | missing (name : Json)
  | companion (name : Json) (other : Text)
  /-- Members that are not allowed, by their names. -/
  | unexpected (names : List Json)
  /-- Members that are not allowed, by their names, where patterns would have allowed them. -/
  | unmatchedNames (names : List Json) (patterns : List Json)
  /-- Items that are not allowed. -/
  | surplus (items : List Json)
  | uncontained (x : Json)
  | repeated (x : Json)
  /-- None of several schemas is met; `exactly` says that no more than one should have been. -/
  | unmatched (x : Json) (exactly : Bool)
  /-- Several schemas are met, and only one should be. -/
  | ambiguous (x : Json) (schemas : List Json)
  | not (x schema : Json)

namespace Complaint

/-- Words with a comma and a space between them. -/
def listed (words : List String) : String :=
  ", ".intercalate words

/-- What was unexpected, in words. -/
def extras (xs : List Json) : String :=
  let verb := if xs.length == 1 then "was" else "were"
  s!"({listed (xs.map Json.quoted)} {verb} unexpected)"

def message : Complaint → String
  | .allowed x => s!"False schema does not allow {x.quoted}"
  | .type x kinds =>
    let names := listed (kinds.map fun k => Text.quote k.name)
    s!"{x.quoted} is not of type {names}"
  | .enum x values => s!"{x.quoted} is not one of {values.quoted}"
  | .const value => s!"{value.quoted} was expected"
  | .limit x l => s!"{x.quoted} {l.text}"
  | .multiple x divisor => s!"{x.quoted} is not a multiple of {divisor.quoted}"
  | .pattern x p => s!"{x.quoted} does not match {p.quote}"
  | .missing name => s!"{name.quoted} is a required property"
  | .companion name other => s!"{name.quoted} is a dependency of {other.quote}"
  | .unexpected names => s!"Additional properties are not allowed {extras names}"
  | .unmatchedNames names patterns =>
    let verb := if names.length == 1 then "does" else "do"
    let patterns := listed (patterns.map Json.quoted)
    s!"{listed (names.map Json.quoted)} {verb} not match any of the regexes: {patterns}"
  | .surplus items => s!"Additional items are not allowed {extras items}"
  | .uncontained x => s!"None of {x.quoted} are valid under the given schema"
  | .repeated x => s!"{x.quoted} has non-unique elements"
  | .unmatched x _ => s!"{x.quoted} is not valid under any of the given schemas"
  | .ambiguous x schemas => s!"{x.quoted} is valid under each of {listed (schemas.map Json.quoted)}"
  | .not x schema => s!"{x.quoted} should not be valid under {schema.quoted}"

/-- The keyword of the demand that is not met. -/
def keyword? : Complaint → Option String
  | .allowed _ => none
  | .type .. => some "type"
  | .enum .. => some "enum"
  | .const _ => some "const"
  | .limit _ l => l.keyword?
  | .multiple .. => some "multipleOf"
  | .pattern .. => some "pattern"
  | .missing _ => some "required"
  | .companion .. => some "dependencies"
  | .unexpected _ | .unmatchedNames .. => some "additionalProperties"
  | .surplus _ => some "additionalItems"
  | .uncontained _ => some "contains"
  | .repeated _ => some "uniqueItems"
  | .unmatched _ exactly => some (if exactly then "oneOf" else "anyOf")
  | .ambiguous .. => some "oneOf"
  | .not .. => some "not"

end Complaint

/-- A complaint about the value at the end of a path of names and numbers. -/
structure Violation where
  path : List Json
  complaint : Complaint

namespace Violation

/-- A violation seen from one step further out. -/
def under (step : Json) (v : Violation) : Violation :=
  { v with path := step :: v.path }

def message (v : Violation) : String :=
  v.complaint.message

end Violation

end LabelPress
