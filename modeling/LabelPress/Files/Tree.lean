import LabelPress.Charset.Utf8
import LabelPress.Files.Path
import LabelPress.Surface

/-!
# File trees

Files and folders as a value. Every file and folder has a place, the row of names that leads to it
from the root; a path leads to a place from the root or from the folder in which the program runs.
What the tree does not hold does not exist.

A tree has no links and no permissions. So a file has no name but its own, two names are two files, and
whatever is held can be read and written over. That a file of another name is kept when a document is
written rests on this.
-/

namespace LabelPress

/-- What a file holds: bytes, or a page whose bytes are made elsewhere. -/
inductive Contents where
  | bytes (bs : List UInt8)
  | page (instructions : Array Instruction)

namespace Contents

def ofText (s : String) : Contents :=
  .bytes (Charset.encodeUtf8 s.toList)

def ofDocument : Document → Contents
  | .text s => ofText s
  | .page instructions => .page instructions

/-- The bytes, as far as they are known. -/
def known : Contents → List UInt8
  | .bytes bs => bs
  | .page _ => []

end Contents

/-- The names on the way from the root to a file or folder. -/
abbrev Place := List String

structure FileTree where
  /-- The folder from which relative paths lead on. -/
  here : Place := []
  files : List (Place × Contents) := []
  /-- The folders that do not lie on the way from the root to `here`. -/
  folders : List Place := []

namespace FileTree

def file? (t : FileTree) (p : Place) : Option Contents :=
  (t.files.find? (·.1 == p)).map (·.2)

def isFolder (t : FileTree) (p : Place) : Bool :=
  p.isPrefixOf t.here || t.folders.contains p

/-- The number of bytes of a name. -/
def nameSize (s : String) : Nat :=
  (Charset.encodeUtf8 s.toList).length

/--
Goes on from a folder along names, each of which but the last has to lead to a folder. The root is
the folder above itself.
-/
def walk (t : FileTree) (folder : Place) : List String → Except FileFault Place
  | [] => .ok folder
  | name :: rest =>
    if name = ".." then t.walk folder.dropLast rest
    else if 255 < nameSize name then .error .nameTooLong
    else
      let place := folder ++ [name]
      if rest.isEmpty then .ok place
      else if t.isFolder place then t.walk place rest
      else if (t.file? place).isSome then .error .notDirectory
      else .error .notFound

/-- Where a path leads, whether or not something is there. -/
def locate (t : FileTree) (p : Path) : Except Fault Place :=
  if p.toString.toList.contains '\x00' then .error .unusablePath
  else if 4096 ≤ nameSize p.toString then .error (.file .nameTooLong)
  else
    match t.walk (if p.root = "" then t.here else []) p.parts with
    | .ok place => .ok place
    | .error fault => .error (.file fault)

/-- The contents of the file to which a path leads. -/
def read (t : FileTree) (p : Path) : Except Fault Contents := do
  let place ← t.locate p
  if t.isFolder place then throw (.file .isDirectory)
  else
    match t.file? place with
    | some c => return c
    | none => throw (.file .notFound)

def setFile (files : List (Place × Contents)) (p : Place) (c : Contents) :
    List (Place × Contents) :=
  if files.any (·.1 == p) then files.map fun f => if f.1 == p then (p, c) else f
  else files ++ [(p, c)]

/-- The tree with other contents for the file to which a path leads. -/
def write (t : FileTree) (p : Path) (c : Contents) : Except Fault FileTree := do
  let place ← t.locate p
  if t.isFolder place then throw (.file .isDirectory)
  else return { t with files := setFile t.files place c }

def makeFolder (t : FileTree) (p : Path) : Except Fault FileTree := do
  let place ← t.locate p
  if t.isFolder place || (t.file? place).isSome then throw (.file .exists)
  else return { t with folders := t.folders ++ [place] }

def leadsToFolder (t : FileTree) (p : Path) : Bool :=
  match t.locate p with
  | .ok place => t.isFolder place
  | .error _ => false

/-- The tree with a folder, which may be there already. -/
def ensureFolder (t : FileTree) (p : Path) : Except Fault FileTree :=
  match t.makeFolder p with
  | .ok t => .ok t
  | .error fault => if t.leadsToFolder p then .ok t else .error fault

/-- The tree with a folder and all folders on the way to it. -/
def ensureFolders (t : FileTree) (p : Path) : Except Fault FileTree :=
  match t.makeFolder p with
  | .ok t => .ok t
  | .error (.file .notFound) =>
    if _h : p.parts = [] then .error (.file .notFound)
    else do
      let t ← t.ensureFolders p.parent
      t.ensureFolder p
  | .error fault => if t.leadsToFolder p then .ok t else .error fault
termination_by p.parts.length
decreasing_by exact p.length_parts_parent _h

def readText (t : FileTree) (p : Path) : Except Fault String := do
  let c ← t.read p
  match Charset.decodeUtf8 c.known with
  | .ok cs => return String.ofList cs
  | .error _ => throw .notText

def readJson (t : FileTree) (p : Path) : Except Fault Json := do
  match Json.parse (← t.readText p) with
  | .ok x => return x
  | .error fault => throw (.json fault)

end FileTree

/-- The recorded drawing that a value means: an object itself, or a text in JSON, or a path. -/
def FileTree.payload (t : FileTree) (x : Json) : Except Fault Json :=
  match x with
  | .object _ => .ok x
  | .string text =>
    let s := text.toString
    match Json.parse s with
    | .ok x => .ok x
    | .error .malformed => t.readJson (.ofString s)
    | .error fault => .error (.json fault)
  | _ => .error (.playback .unsupportedPayload)

end LabelPress
