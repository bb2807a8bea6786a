import LabelPress.Charset.Encoding
import LabelPress.Input.Fault
import LabelPress.Json.Reader
import LabelPress.Schema.Report

/-!
# Why a label is not printed

Every cause for which reading, interpreting or drawing a label stops, in one type, with the wording
of those that are told to the user.
-/

namespace LabelPress

/-- One of the two ends of a label. -/
inductive LabelEnd where
  | first
  | last
  deriving DecidableEq, Repr

/-- Why commands are not a label: it begins with `XA`, ends with `XZ` and has neither in between. -/
inductive EnvelopeFault where
  /-- The first command, if there is one, does not begin a label. -/
  | notBegun (first : Option Text)
  /-- The last command, if it is not also the first, does not end a label. -/
  | notEnded (last : Option Text)
  | nested
  | endedEarly
  deriving DecidableEq, Repr

namespace EnvelopeFault

def side : EnvelopeFault → LabelEnd
  | .notBegun _ | .nested => .first
  | .notEnded _ | .endedEarly => .last

/-- The command that stands where it should not. -/
def command : EnvelopeFault → Option Text
  | .notBegun first => first
  | .notEnded last => last
  | .nested => some "XA"
  | .endedEarly => some "XZ"

/-- A name, or nothing, as messages show it. -/
def shownName (name : Option Text) : String :=
  match name with
  | some t => t.quote
  | none => "None"

def message : EnvelopeFault → String
  | .notBegun first => s!"Label must start with ^XA (got {shownName first})"
  | .notEnded last => s!"Label must end with ^XZ (got {shownName last})"
  | .nested => "^XA cannot be nested"
  | .endedEarly => "^XZ before the end of the label"

end EnvelopeFault

/-- What an argument has to be. -/
inductive Bound where
  | between (low high : Int)
  /-- Between the thickness of a line and a greatest length. -/
  | fromThickness (thickness high : Int)
  | ratio
  | oneOf (choices : List String)
  | encodable
  deriving DecidableEq, Repr

def Bound.text : Bound → String
  | .between low high => s!"greater than or equal to {low} and less than or equal to {high}"
  | .fromThickness thickness high =>
    s!"greater than or equal to border thickness ({thickness}) and less than or equal to {high}"
  | .ratio => "greater than or equal to 2.0 and less than or equal to 3.0"
  | .oneOf choices =>
    "one of " ++ ", ".intercalate (choices.map fun c => String.ofList ('"' :: c.toList ++ ['"']))
  | .encodable => "encodable as Code 128"

/-- What is wrong with an argument. -/
inductive ArgumentComplaint where
  | notInteger (text : Text)
  | notNumber (text : Text)
  | outside (value : Json) (bound : Bound)

/-- A field of a command with an argument that the field does not allow. -/
structure ArgumentFault where
  command : String
  field : String
  complaint : ArgumentComplaint

namespace ArgumentFault

def value (f : ArgumentFault) : Json :=
  match f.complaint with
  | .notInteger text | .notNumber text => .string text
  | .outside value _ => value

/-- What the value should have been, in words. -/
def expected (f : ArgumentFault) : String :=
  match f.complaint with
  | .notInteger _ => "an integer"
  | .notNumber _ => "a number"
  | .outside _ bound => bound.text

def message (f : ArgumentFault) : String :=
  s!"{f.command}: {f.field} must be {f.expected} (got {f.value.quoted})"

end ArgumentFault

/-- Why a canvas does not carry out an instruction. -/
inductive CanvasFault where
  /-- A value is of the right kind, but cannot be drawn. -/
  | unsuitable
  /-- A length is infinite. -/
  | boundless
  /-- There is no font of that name. -/
  | unknownFont
  /-- A value is of a kind that cannot be a name. -/
  | noName
  /-- A value lacks a part that the canvas needs. -/
  | missingPart
  | other (reason : String)
  deriving DecidableEq, Repr

/-- Why a recorded drawing or one of its entries is not played. -/
inductive PlaybackFault where
  /-- The entry has no name. -/
  | nameless
  | unknownCommand (name : Text)
  /-- The arguments of an entry are no object. -/
  | unnamedArguments
  /-- The drawing is neither an object nor a text. -/
  | unsupportedPayload

/-- Why a file or folder is not opened or made. -/
inductive FileFault where
  | notFound
  | isDirectory
  | notDirectory
  | exists
  | nameTooLong
  deriving DecidableEq, Repr

namespace FileFault

def reason : FileFault → String
  | .notFound => "No such file or directory"
  | .isDirectory => "Is a directory"
  | .notDirectory => "Not a directory"
  | .exists => "File exists"
  | .nameTooLong => "File name too long"

end FileFault

inductive Fault where
  | input (fault : InputFault)
  | encoding (name : Text) (fault : EncodingFault)
  /-- The character set lacks a character of the text. -/
  | unencodable
  | envelope (fault : EnvelopeFault)
  | argument (fault : ArgumentFault)
  | value (fault : ValueFault)
  /-- A call with too few, too many or unknown arguments. -/
  | wrongArguments
  /-- Drawing was asked for before there was a page. -/
  | noDocument
  | canvas (fault : CanvasFault)
  | playback (fault : PlaybackFault)
  | violation (v : Violation)
  | schema (fault : SchemaFault)
  | json (fault : Json.ReadFault)
  /-- The bytes of a file are not UTF-8. -/
  | notText
  | file (fault : FileFault)
  | unknownSurface (name : String)
  /-- A path without a name cannot take another suffix. -/
  | namelessPath
  /-- A path with the character NUL is no path. -/
  | unusablePath

namespace Fault

def ofFinding : Finding → Fault
  | .violation v => .violation v
  | .fault f => .schema f

/-- The fault in words; those of single values have none of their own. -/
def message : Fault → String
  | .input fault => fault.message
  | .encoding name fault => s!"Unsupported encoding {name.quote}: {fault.reason name}"
  | .envelope fault => fault.message
  | .argument fault => fault.message
  | .canvas (.other reason) => reason
  | .noDocument => "PdfBackend has no document. Call create_document() first."
  | .playback .unnamedArguments => "command args must be a mapping"
  | .playback .unsupportedPayload => "Unsupported payload type"
  | .playback (.unknownCommand name) => s!"Unsupported command: {name}"
  | .violation v => v.message
  | .file fault => fault.reason
  | .unknownSurface name => s!"Unknown backend '{name}'"
  | _ => ""

end Fault

end LabelPress
