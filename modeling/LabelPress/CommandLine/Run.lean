import LabelPress.CommandLine.Arguments
import LabelPress.Conversion
import LabelPress.Files.Tree

/-!
# The command line

One run of the program as a function from the words of a command line and a file tree to an exit
code, what is printed, and the tree afterwards. Settings are read before the input, and nothing is
written before the whole conversion has succeeded.
-/

namespace LabelPress.CommandLine

/-- What comes of a run. -/
structure Run where
  /-- The exit code, or the fault that ends the program without one. -/
  exit : Except Fault Nat
  tree : FileTree
  /-- The surface that was drawn on, if it came to that. -/
  surface : Option Surface := none
  stdout : String := ""
  stderr : String := ""

/-- The name of the program. -/
def program : String := "zpl2pdf.py"

/-- How the program is called. -/
def usage : String :=
  "usage: zpl2pdf.py [-h] [-o OUTPUT] [--config CONFIG] [--width WIDTH]\n" ++
  "                  [--height HEIGHT] [--dpmm DPMM] [--encoding ENCODING]\n" ++
  "                  [--backend \x7bjson,pdf,trace\x7d] [-v]\n" ++
  "                  input\n"

/-- What the user is told about a fault; other faults end the program. -/
def report? (fault : Fault) : Option String :=
  match fault with
  | .input .tooFar | .input (.codec _) | .encoding _ .nul => none
  | .input _ | .encoding .. | .envelope _ | .argument _ => some fault.message
  | .violation v => some s!"Invalid settings: {v.message}"
  | _ => none

/-- A text that is given and not empty. -/
def nonempty (s : Option String) : Option String :=
  s.filter (· ≠ "")

/-- The settings that a command line asks for: those of a file, with single ones set. -/
def settings (library : Codec.Library) (a : Arguments) (tree : FileTree) :
    Except Fault Settings := do
  let base ←
    match nonempty a.config with
    | some path => Settings.ofJson library (← tree.readJson (.ofString path))
    | none => pure {}
  base.merged library [
    ("width_mm", a.width.getD .null),
    ("height_mm", a.height.getD .null),
    ("dpmm", a.resolution.getD .null),
    ("encoding", a.encoding.getD .null)]

/-- Where the document goes: to the path that is given, or beside the input. -/
def outputPath (a : Arguments) (input : Path) : Except Fault Path :=
  match nonempty a.output, a.surface with
  | some s, _ => .ok (.ofString s)
  | none, none => .error (.value .wrongKind)
  | none, some form =>
    match input.withSuffix? form.suffix with
    | some p => .ok p
    | none => .error .namelessPath

/-- The kind of surface on which to draw; without one there is nothing to draw on. -/
def form (a : Arguments) : Except Fault Surface.Form :=
  match a.surface with
  | some form => .ok form
  | none => .error (.value .missingPart)

def openInput (library : Codec.Library) (tree : FileTree) (input : Path) (encoding : String) :
    Except Fault Reader := do
  let _ ← Reader.encodingOf library encoding
  match tree.read input with
  | .error (.file fault) => throw (.input (.stream (.unopened input.toString fault.reason)))
  | .error fault => throw fault
  | .ok contents =>
    match Reader.ofSource library encoding { bytes := contents.known.toArray } with
    | .ok r _ => return r
    | .error fault _ => throw fault

/-- The document as a whole, checked once more if it is a recording. -/
def checked (c : Conversion) : Except Fault Document := do
  let document ← c.result
  match c.surface with
  | .recording r =>
    match r.validate with
    | some fault => throw fault
    | none => return document
  | _ => return document

/-- The size of a document in bytes, if it is known. -/
def sizeText : Document → String
  | .text s => toString (Charset.encodeUtf8 s.toList).length
  | .page _ => "?"

def report (input output : Path) (document : Document) (form : Surface.Form) : String :=
  s!"[+] {input.toString} → {output.toString} ({sizeText document} bytes, backend={form.name})\n"

/-- Writes a document; folders on the way to it are made. -/
def deliver (input output : Path) (document : Document) (form : Surface.Form) (tree : FileTree) :
    Run :=
  match tree.ensureFolders output.parent with
  | .error fault => { exit := .error fault, tree }
  | .ok tree =>
    match tree.write output (.ofDocument document) with
    | .error fault => { exit := .error fault, tree }
    | .ok tree => { exit := .ok 0, tree, stdout := report input output document form }

/-- The end of a run in which nothing was written. -/
def failed (fault : Fault) (tree : FileTree) : Run :=
  match report? fault with
  | some text => { exit := .ok 1, tree, stderr := s!"[!] {text}\n" }
  | none => { exit := .error fault, tree }

/-- The notes of a conversion, if they are wanted. -/
def noteText (verbose : Bool) (notes : List Note) : String :=
  if verbose then String.join (notes.map fun n => n.line ++ "\n") else ""

/-- What is needed before anything is drawn, in the order in which it is looked at. -/
def prepare (library : Codec.Library) (a : Arguments) (input : Path) (tree : FileTree) :
    Except Fault (Settings × Surface.Form × Reader) := do
  let s ← settings library a tree
  let form ← form a
  return (s, form, ← openInput library tree input s.encoding)

/-- Converts the input file to a document at the output path. -/
def convert (library : Codec.Library) (a : Arguments) (input output : Path) (tree : FileTree) : Run :=
  match prepare library a input tree with
  | .error fault => failed fault tree
  | .ok (s, form, reader) =>
    let c := Conversion.withSettings reader s (form.fresh input.name)
    let run :=
      match checked c with
      | .error fault => failed fault tree
      | .ok document => deliver input output document form tree
    { run with surface := some c.surface, stderr := noteText a.verbose c.notes ++ run.stderr }

def run (library : Codec.Library) (words : List String) (tree : FileTree) : Run :=
  match Arguments.parse words with
  | .error .help => { exit := .ok 0, tree, stdout := usage }
  | .error stop =>
    { exit := .ok 2, tree, stderr := usage ++ s!"{program}: error: {stop.message}\n" }
  | .ok a =>
    let input := Path.ofString (a.input.getD "")
    match outputPath a input with
    | .error fault => { exit := .error fault, tree }
    | .ok output => convert library a input output tree

end LabelPress.CommandLine
