import LabelPress.Surface.Page
import LabelPress.Surface.Recording
import LabelPress.Surface.Trace

/-!
# Surfaces

What a label can be drawn on: a recording, a trace or a page.
-/

namespace LabelPress

inductive Surface where
  | recording (r : Recording)
  | trace (t : Trace)
  | page (p : Page)

/-- What a surface makes of a drawing. A page is known by the instructions that made it. -/
inductive Document where
  | text (s : String)
  | page (instructions : Array Instruction)

namespace Surface

def draw (c : Call) : Surface → Outcome Surface
  | .recording r => (r.draw c).map .recording
  | .trace t => (t.draw c).map .trace
  | .page p => (p.draw c).map .page

def finish : Surface → Surface × Except Fault Document
  | .recording r => (.recording r, .ok (.text (r.render .standard)))
  | .trace t => (.trace t, .text <$> t.render)
  | .page p =>
    let (p, result) := p.finish
    (.page p, .page <$> result)

/-- Whether finishing the drawing twice gives one and the same document and not a second copy. -/
def keepsDocument : Surface → Bool
  | .recording _ => false
  | .trace t => t.lines.isEmpty
  | .page _ => true

/-- The kinds of surface by name, in the order of the names. -/
inductive Form where
  | json
  | pdf
  | trace
  deriving DecidableEq, Repr

namespace Form

def all : List Form := [.json, .pdf, .trace]

def name : Form → String
  | .json => "json"
  | .pdf => "pdf"
  | .trace => "trace"

def suffix : Form → String
  | .json => ".json"
  | .pdf => ".pdf"
  | .trace => ".txt"

def ofName? (s : String) : Option Form :=
  all.find? (·.name == s)

/-- A new surface. A recording says what was drawn; nothing is printed. -/
def fresh (form : Form) (source : String) : Surface :=
  match form with
  | .json => .recording { source := .string source }
  | .pdf => .page {}
  | .trace => .trace {}

end Form

/-- A new surface by the name of its kind, in any case. -/
def ofName (name source : String) : Except Fault Surface :=
  match Form.ofName? (String.ofList (name.toList.map Decimal.lowerAscii)) with
  | some form => .ok (form.fresh source)
  | none => .error (.unknownSurface name)

end Surface

end LabelPress
