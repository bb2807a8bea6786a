import LabelPress.Schema.Distinct
import LabelPress.Schema.Report

/-!
# Checks

Whether a value meets a schema. `Schema.report` goes through the demands in order and reports what
is not met; `Schema.check` says what comes first. What patterns match and what addresses lead to is
left to others (`Schema.Outside`). Schemas are followed into one another up to a depth, so a check
comes to an end whatever the addresses lead to.
-/

namespace LabelPress

/-- Names in the order of their texts. -/
def Schema.sorted (names : List Json) : List Json :=
  names.mergeSort fun a b => !decide (b.plain < a.plain)

/-- Whether a value has a member of that name; what cannot be a name is a fault. -/
def Schema.hasMember (members : List (Text × Json)) : Json → Except SchemaFault Bool
  | .string name => .ok (members.any (·.1 == name))
  | .array _ | .object _ => .error (.value .wrongKind)
  | _ => .ok false

/-- What is said about a value by what stands at an address within the schema at another one, with so
much depth left. -/
abbrev Schema.Follow := Nat → String → Text → Json → Report

/-- What a check leaves to others, and about which it assumes nothing. -/
structure Schema.Outside where
  /-- Whether a pattern matches somewhere in a text. -/
  occurs (pattern t : Text) : Except SchemaFault Bool
  /-- An address, read relative to another one. -/
  join (base address : String) : String
  follow : Follow

namespace Described

def pattern (d : Described) : Text :=
  Text.intercalate "|" (d.patterns.getD [])

def covers (o : Schema.Outside) (d : Described) (name : Text) : Except SchemaFault Bool :=
  if d.names.contains name then .ok true
  else if d.pattern.isEmpty then .ok false
  else o.occurs d.pattern name

def extras (o : Schema.Outside) (d : Described) (members : List (Text × Json)) :
    Except SchemaFault (List (Text × Json)) :=
  members.filterM fun m => do return !(← d.covers o m.1)

/-- The complaint about members that are not described. -/
def complaint (d : Described) (extras : List (Text × Json)) : Complaint :=
  let names := Schema.sorted (extras.map fun m => .string m.1)
  match d.patterns with
  | some patterns => .unmatchedNames names (Schema.sorted (patterns.map .string))
  | none => .unexpected names

end Described

namespace Schema

/--
What is wrong with the part of a value at a step, seen from the value. A part that may not be there
at all is no place of its own.
-/
def inPart (schema : Schema) (step : Json) (found : Report) : Report :=
  match schema with
  | .never => found
  | _ => found.under step

def eachMember (f : Text → Json → Report) (x : Json) : Report :=
  match x with
  | .object members => .each (fun m => f m.1 m.2) members
  | _ => .done

def eachItem (f : Json → Json → Report) (count : Nat) (x : Json) : Report :=
  match x with
  | .array xs => .eachFrom (fun i y => f (.int i) y) count (xs.drop count)
  | _ => .done

/-- Whether the first of several reports to be clean is found, looking at no more than is needed. -/
def anyClean (f : Json → Report) : List Json → Except SchemaFault Bool
  | [] => .ok false
  | x :: xs => do if ← (f x).isClean then return true else anyClean f xs

/-- How deep a check goes. -/
def maxDepth : Nat := 990

/-- Where a check stands: how deep it may still go, and at the address of which schema. -/
structure Position where
  outside : Outside
  depth : Nat := maxDepth
  base : String := ""

namespace Position

def deeper (p : Position) (cost : Nat) (f : Position → Report) : Report :=
  if cost ≤ p.depth then f { p with depth := p.depth - cost } else .fault .tooDeep

/-- The position in a schema with an address of its own. -/
def within (p : Position) (address : String) : Position :=
  { p with base := p.outside.join p.base address }

/-- What is said about a value by what stands at an address. -/
def refer (p : Position) (address : Text) (x : Json) : Report :=
  p.deeper 3 fun p => p.outside.follow p.depth p.base address x

end Position

mutual

/--
What a value does not meet of a schema. An address of the schema itself counts if the schema is
entered from the one around it. What is only asked whether it is met takes more of the depth than
what is reported.
-/
def report (p : Position) (entered : Bool) : Schema → Json → Report
  | .all demands, x => p.deeper 2 fun p => reportAll p demands x
  | .any choices, x => .require (meetsAny p choices x) (.unmatched x false)
  | .one choices, x => reportOne p choices x
  | .not text schema, x =>
    p.deeper 1 fun p =>
      .require (Bool.not <$> (report p false schema x).isClean) (.not x text)
  | .cases condition whenMet otherwise, x =>
    let met := (p.deeper 1 fun p => report p false condition x).isClean
    .withValue met fun met =>
      if met then report p true whenMet x else report p true otherwise x
  | .never, x => .demand false (.allowed x)
  | .refer address, x => p.refer address x
  | .located address schema, x =>
    if entered then
      match address with
      | some a => report (p.within a) true schema x
      | none => .fault (.value .missingPart)
    else report p true schema x
  | .broken fault, _ => .fault fault
  | .forKind kind schema, x =>
    if kind.holds x then report p true schema x else .done
  | .type kinds stop, x =>
    if kinds.any (·.holds x) then .done
    else
      match stop with
      | some fault => .fault fault
      | none => .demand false (.type x kinds)
  | .enum values shown, x => .demand (values.any x.same) (.enum x shown)
  | .const value, x => .demand (x.same value) (.const value)
  | .limit l, x => .demand (l.holds x) (.limit x l)
  | .multiple divisor shown, x =>
    match x with
    | .number n =>
      match n.isMultipleOf divisor with
      | .ok b => .demand b (.multiple x shown)
      | .error fault => .fault (.value fault)
    | _ => .done
  | .pattern words, x =>
    match x with
    | .string t => .require (p.outside.occurs words t) (.pattern x words)
    | _ => .done
  | .required names, x =>
    match x with
    | .object members => .each (fun name => .require (hasMember members name) (.missing name)) names
    | _ => .done
  | .properties schemas, x => reportProperties p schemas x
  | .matching words schema, x =>
    eachMember (fun name y => .withValue (p.outside.occurs words name) fun b =>
      if b then inPart schema (.string name) (report p true schema y) else .done) x
  | .only described, x =>
    match x with
    | .object members =>
      .withValue (described.extras p.outside members) fun unknown =>
        .demand unknown.isEmpty (described.complaint unknown)
    | _ => .done
  | .others described schema, x =>
    match x with
    | .object members =>
      .withValue (described.extras p.outside members) fun unknown =>
        .each (fun m => inPart schema (.string m.1) (report p true schema m.2)) unknown
    | _ => .done
  | .memberNames schema, x =>
    eachMember (fun name _ => report p true schema (.string name)) x
  | .whenMember name schema, x =>
    if (x.get? name).isSome then report p true schema x else .done
  | .companions names other, x =>
    match x with
    | .object members =>
      .each (fun name => .require (hasMember members name) (.companion name other)) names
    | _ => .done
  | .items schema, x =>
    eachItem (fun step y => inPart schema step (report p true schema y)) 0 x
  | .leading schemas, x =>
    match x with
    | .array xs => reportLeading p schemas 0 xs
    | _ => .done
  | .itemsAfter count schema, x =>
    eachItem (fun step y => inPart schema step (report p true schema y)) count x
  | .noneAfter count, x =>
    match x with
    | .array xs => .demand (xs.drop count).isEmpty (.surplus (xs.drop count))
    | _ => .done
  | .contains schema, x =>
    match x with
    | .array xs =>
      let f (y : Json) := p.deeper 2 fun p => report p false schema y
      .require (anyClean f xs) (.uncontained x)
    | _ => .done
  | .distinct, x =>
    match x with
    | .array xs => .demand (Json.areDistinct xs) (.repeated x)
    | _ => .done

/-- What a value does not meet of several demands, in order. -/
def reportAll (p : Position) : List Schema → Json → Report
  | [], _ => .done
  | s :: ss, x => (report p true s x).append fun _ => reportAll p ss x

def meetsAny (p : Position) : List Schema → Json → Except SchemaFault Bool
  | [], _ => .ok false
  | s :: ss, x => do
    if ← (report p true s x).isEmpty then return true else meetsAny p ss x

/-- What is wrong if exactly one of several schemas should be met. -/
def reportOne (p : Position) : List (Json × Schema) → Json → Report
  | [], x => .demand false (.unmatched x true)
  | (text, s) :: ss, x =>
    .withValue (report p true s x).isEmpty fun isMet =>
      if isMet then
        .withValue (met p ss x) fun more =>
          .demand more.isEmpty (.ambiguous x (more ++ [text]))
      else reportOne p ss x

/-- The texts of the schemas that a value meets. -/
def met (p : Position) :
    List (Json × Schema) → Json → Except SchemaFault (List Json)
  | [], _ => .ok []
  | (text, s) :: ss, x => do
    let found := p.deeper 2 fun p => report p false s x
    if ← found.isClean then return text :: (← met p ss x)
    else met p ss x

/-- What the members of a value do not meet. -/
def reportProperties (p : Position) : List (Text × Schema) → Json → Report
  | [], _ => .done
  | (name, s) :: ps, x =>
    (match x.get? name with
      | some y => inPart s (.string name) (report p true s y)
      | none => .done).append fun _ => reportProperties p ps x

/-- What the items do not meet, one schema each and counted from `i`. -/
def reportLeading (p : Position) : List Schema → Nat → List Json → Report
  | s :: ss, i, x :: xs =>
    (inPart s (.int i) (report p true s x)).append fun _ =>
      reportLeading p ss (i + 1) xs
  | _, _, _ => .done

end

/-- Nothing to rely on: there are no patterns, and addresses lead nowhere. -/
def Outside.nothing : Outside where
  occurs _ _ := .error (.pattern .malformed)
  join _ address := address
  follow _ _ _ _ := .fault .nowhere

/-- What comes first of what a value does not meet of a schema that relies on nothing else. -/
def check (s : Schema) (x : Json) : Option Finding :=
  (report { outside := .nothing } true s x).first?

/-- Whatever says what is wrong first with a value, given a schema that is written as JSON. -/
abbrev Validator := (schema value : Json) → Option Finding

end Schema

end LabelPress
