import LabelPress.Decimal.Reader
import LabelPress.Surface
import LabelPress.Text.Quoted

/-!
# Command line arguments

The words of a command line as the input file and the options. Options may stand anywhere; a name
may be cut short as long as one option is meant, one-letter options may be run together, and a
value may be joined to the name. After `--` no word is an option, and neither is a negative number.
A value that is joined to a name and consists of `--` alone counts as no value at all.
-/

namespace LabelPress

/-- The options. -/
inductive Flag where
  | help
  | output
  | config
  | width
  | height
  | resolution
  | encoding
  | surface
  | verbose
  deriving DecidableEq, Repr

namespace Flag

def all : List Flag :=
  [help, output, config, width, height, resolution, encoding, surface, verbose]

def names : Flag → List String
  | help => ["-h", "--help"]
  | output => ["-o", "--output"]
  | config => ["--config"]
  | width => ["--width"]
  | height => ["--height"]
  | resolution => ["--dpmm"]
  | encoding => ["--encoding"]
  | surface => ["--backend"]
  | verbose => ["-v", "--verbose"]

def hasValue : Flag → Bool
  | help | verbose => false
  | _ => true

def table : List (String × Flag) :=
  all.flatMap fun f => f.names.map fun name => (name, f)

def ofName? (s : String) : Option Flag :=
  (table.find? (·.1 == s)).map (·.2)

def shown (f : Flag) : String :=
  "/".intercalate f.names

end Flag

/-- Why the words of a command line are not carried out. -/
inductive Stop where
  /-- Help was asked for. -/
  | help
  | ambiguous (word : String) (names : List String)
  | noValue (f : Flag)
  /-- A value was joined to an option that has none. -/
  | strayValue (f : Flag) (text : String)
  | notNumber (f : Flag) (text : String)
  | notInteger (f : Flag) (text : String)
  | noChoice (f : Flag) (text : String) (choices : List String)
  | noInput
  | unrecognized (words : List String)
  deriving DecidableEq, Repr

namespace Stop

def about (f : Flag) (text : String) : String :=
  s!"argument {f.shown}: {text}"

def message : Stop → String
  | help => ""
  | ambiguous word names =>
    let list := ", ".intercalate names
    s!"ambiguous option: {word} could match {list}"
  | noValue f => about f "expected one argument"
  | strayValue f text => about f s!"ignored explicit argument {Text.quote text}"
  | notNumber f text => about f s!"invalid float value: {Text.quote text}"
  | notInteger f text => about f s!"invalid int value: {Text.quote text}"
  | noChoice f text choices =>
    let list := ", ".intercalate (choices.map fun (c : String) => Text.quote c)
    about f s!"invalid choice: {Text.quote text} (choose from {list})"
  | noInput => "the following arguments are required: input"
  | unrecognized words =>
    let list := " ".intercalate words
    s!"unrecognized arguments: {list}"

end Stop

/-- What a command line asks for. -/
structure Arguments where
  input : Option String := none
  output : Option String := none
  config : Option String := none
  /-- The width, and the empty list if it was given no value. The next three fields are alike. -/
  width : Option Json := none
  height : Option Json := none
  resolution : Option Json := none
  encoding : Option Json := none
  /-- The kind of surface, unless it was given no value. -/
  surface : Option Surface.Form := some .pdf
  verbose : Bool := false
  /-- The words that are of no use. -/
  extras : List String := []

/-- A word of a command line by its form. -/
inductive Word where
  | plain (s : String)
  /-- `--`, after which all words are plain. -/
  | mark
  /-- An option by a name of one letter or a long one, with the text that is joined to the name. -/
  | option (f : Flag) (short : Bool) (joined : Option (List Char))
  /-- A word in the form of an option, but of none there is. -/
  | unknown (s : String)
  deriving DecidableEq, Repr

namespace Word

/-- Whether characters are a negative number: digits, perhaps with a point before or among them. -/
def isNegative (cs : List Char) : Bool :=
  let isDigit (c : Char) := (Text.digitValue? c).isSome
  match cs with
  | '-' :: rest =>
    let rest := if rest.getLast? = some '\n' then rest.dropLast else rest
    match rest.dropWhile isDigit with
    | [] => !rest.isEmpty
    | '.' :: fraction => !fraction.isEmpty && fraction.all isDigit
    | _ => false
  | _ => false

/-- The options with a name that begins like a word. -/
def candidates (start : String) : List (String × Flag) :=
  Flag.table.filter fun t => start.toList.isPrefixOf t.1.toList

/-- A word in the form of an option that means none: a number, a plain word, or unknown. -/
def other (s : String) : Word :=
  if isNegative s.toList || s.toList.contains ' ' then .plain s else .unknown s

/-- A text cut at its first equals sign. -/
def cutAtEquals (cs : List Char) : List Char × Option (List Char) :=
  match cs.dropWhile (· ≠ '=') with
  | [] => (cs, none)
  | _ :: joined => (cs.takeWhile (· ≠ '='), some joined)

/-- A word that begins with two hyphens. -/
def classifyLong (s : String) : Except Stop Word :=
  let (name, joined) := cutAtEquals s.toList
  match candidates (String.ofList name) with
  | [] => .ok (other s)
  | [(_, f)] => .ok (.option f false joined)
  | many => .error (.ambiguous s (many.map (·.1)))

/-- A word by its form. A name that is an option as it stands is not taken for a shorter one. -/
def classify (s : String) : Except Stop Word :=
  let (name, joined) := cutAtEquals s.toList
  match s.toList, Flag.ofName? (String.ofList name) with
  | '-' :: '-' :: _, some f => .ok (.option f false joined)
  | '-' :: '-' :: _, none => classifyLong s
  | '-' :: _, some f => .ok (.option f true joined)
  | '-' :: c :: rest, none =>
    match Flag.ofName? (String.ofList ['-', c]) with
    | some f => .ok (.option f true (some rest))
    | none => .ok (other s)
  | _, _ => .ok (.plain s)

def classifyAll : List String → Except Stop (List Word)
  | [] => .ok []
  | s :: rest =>
    if s = "--" then .ok (.mark :: rest.map .plain)
    else do
      let w ← classify s
      return w :: (← classifyAll rest)

end Word

namespace Arguments

def turnOn (f : Flag) (a : Arguments) : Except Stop Arguments :=
  match f with
  | .help => .error .help
  | .verbose => .ok { a with verbose := true }
  | _ => .ok a

def clear (f : Flag) (a : Arguments) : Arguments :=
  let nothing : Option Json := some (.array [])
  match f with
  | .output => { a with output := none }
  | .config => { a with config := none }
  | .width => { a with width := nothing }
  | .height => { a with height := nothing }
  | .resolution => { a with resolution := nothing }
  | .encoding => { a with encoding := nothing }
  | .surface => { a with surface := none }
  | .help | .verbose => a

/-- Sets an option to the value that a text stands for. -/
def setTo (f : Flag) (text : String) (a : Arguments) : Except Stop Arguments :=
  let number (g : Json → Arguments) : Except Stop Arguments :=
    match Decimal.number? text with
    | some x => .ok (g (.float x))
    | none => .error (.notNumber f text)
  match f with
  | .output => .ok { a with output := some text }
  | .config => .ok { a with config := some text }
  | .encoding => .ok { a with encoding := some (.string text) }
  | .width => number fun x => { a with width := some x }
  | .height => number fun x => { a with height := some x }
  | .resolution =>
    match Decimal.integer? text with
    | some n => .ok { a with resolution := some (.int n) }
    | none => .error (.notInteger f text)
  | .surface =>
    match Surface.Form.ofName? text with
    | some form => .ok { a with surface := some form }
    | none => .error (.noChoice f text (Surface.Form.all.map (·.name)))
  | .help | .verbose => .ok a

def set (f : Flag) (text : String) (a : Arguments) : Except Stop Arguments :=
  if text = "--" then .ok (a.clear f) else a.setTo f text

/-- What a word with options asks for: options without values, and perhaps one with a value last. -/
inductive Request where
  | complete (flags : List Flag) (valued : Option (Flag × String))
  /-- The last option takes its value from the next word. -/
  | open (flags : List Flag) (last : Flag)

/--
What an option and the letters after it ask for. After an option with a value all of them are the
value; after one without, the next letter is an option too.
-/
def cluster (flags : List Flag) (f : Flag) : List Char → Except Stop Request
  | [] => .ok (if f.hasValue then .open flags f else .complete (flags ++ [f]) none)
  | c :: cs =>
    let joined := String.ofList (c :: cs)
    if f.hasValue then .ok (.complete flags (some (f, joined)))
    else
      match Flag.ofName? (String.ofList ['-', c]) with
      | some g => cluster (flags ++ [f]) g cs
      | none => .error (.strayValue f joined)

/-- What an option and the text that is joined to its name ask for. -/
def request (f : Flag) (short : Bool) (joined : Option (List Char)) : Except Stop Request :=
  match joined with
  | none => cluster [] f []
  | some cs =>
    if f.hasValue then .ok (.complete [] (some (f, String.ofList cs)))
    else if short && !cs.isEmpty then cluster [] f cs
    else .error (.strayValue f (String.ofList cs))

def turnOnAll (flags : List Flag) (a : Arguments) : Except Stop Arguments :=
  flags.foldlM (fun a f => a.turnOn f) a

/-- Takes words in order. The first plain word is the input; further ones are of no use. -/
def consume : List Word → Arguments → Except Stop Arguments
  | [], a => .ok a
  | .unknown s :: ws, a => consume ws { a with extras := a.extras ++ [s] }
  | .plain s :: .mark :: ws, a =>
    if a.input.isNone then consume ws { a with input := some s }
    else consume ws { a with extras := a.extras ++ [s, "--"] }
  | .plain s :: ws, a =>
    if a.input.isNone then consume ws { a with input := some s }
    else consume ws { a with extras := a.extras ++ [s] }
  | .mark :: .plain s :: ws, a =>
    if a.input.isNone then consume ws { a with input := some s }
    else consume ws { a with extras := a.extras ++ ["--", s] }
  | .mark :: ws, a => consume ws { a with extras := a.extras ++ ["--"] }
  | .option f short joined :: ws, a => do
    match ← request f short joined with
    | .complete flags valued =>
      let a ← a.turnOnAll flags
      match valued with
      | none => consume ws a
      | some (g, text) => consume ws (← a.set g text)
    | .open flags g =>
      match ws with
      | .plain s :: ws =>
        let a ← a.turnOnAll flags
        consume ws (← a.setTo g s)
      | _ => .error (.noValue g)

def parse (words : List String) : Except Stop Arguments := do
  let a ← consume (← Word.classifyAll words) {}
  if a.input.isNone then throw .noInput
  else if !a.extras.isEmpty then throw (.unrecognized a.extras)
  else return a

end Arguments

end LabelPress
