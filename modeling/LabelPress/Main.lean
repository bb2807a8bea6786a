import LabelPress.Charset.Idna
import LabelPress.CommandLine.Run

/-!
# The program

Looks at the files that the command line names, runs, writes what has changed, and prints. A page is
written as the list of its instructions.
-/

namespace LabelPress.CommandLine

/-- The place to which a path leads from a folder if every folder on the way exists. -/
def placeFrom (here : Place) (path : Path) : Place :=
  path.parts.foldl (fun place name => if name = ".." then place.dropLast else place ++ [name])
    (if path.root = "" then here else [])

/-- A place as the text of a path from the root. -/
def pathText (place : Place) : String :=
  "/" ++ "/".intercalate place

/-- Enters what stands at a place into a tree. -/
def look (tree : FileTree) (place : Place) : IO FileTree := do
  try
    let bytes ← IO.FS.readBinFile (pathText place)
    return { tree with files := FileTree.setFile tree.files place (.bytes bytes.toList) }
  catch e =>
    match e with
    | .inappropriateType .. => return { tree with folders := tree.folders ++ [place] }
    | _ => return tree

/-- Enters what stands on the way to a path into a tree. -/
def lookAlong (tree : FileTree) (text : String) : IO FileTree :=
  let path := Path.ofString text
  (List.range path.parts.length).foldlM
    (fun tree i =>
      look tree (placeFrom tree.here { path with parts := path.parts.take (i + 1) }))
    tree

/-- The files and folders that matter to a command line, seen from a folder. -/
def survey (here : Place) (words : List String) : IO FileTree :=
  match Arguments.parse words with
  | .error _ => return { here }
  | .ok a =>
    let input := a.input.toList.map Path.ofString
    let output := input.filterMap fun p => (outputPath a p).toOption.map (·.toString)
    (a.input.toList ++ a.config.toList ++ output).foldlM lookAlong { here }

/-- Writes a file, with the folders on the way to it. -/
def store (place : Place) (contents : Contents) : IO Unit := do
  IO.FS.createDirAll (pathText place.dropLast)
  match contents with
  | .bytes bs => IO.FS.writeBinFile (pathText place) ⟨bs.toArray⟩
  | .page instructions =>
    IO.FS.writeFile (pathText place)
      (Json.render .standard (.array (instructions.toList.map (·.toJson))))

/-- Whether two contents are the same bytes; a page is always written anew. -/
def unchanged (old new : Option Contents) : Bool :=
  match old, new with
  | some (.bytes a), some (.bytes b) => a == b
  | none, none => true
  | _, _ => false

end LabelPress.CommandLine

open LabelPress CommandLine in
def main (words : List String) : IO UInt32 := do
  let here := (Path.ofString (← IO.currentDir).toString).parts
  let before ← survey here words
  let result := run .standard words before
  for (place, contents) in result.tree.files do
    if !unchanged (before.file? place) (some contents) then store place contents
  IO.print result.stdout
  IO.eprint result.stderr
  match result.exit with
  | .ok code => return code.toUInt32
  | .error fault =>
    IO.eprintln s!"{program}: {fault.message}"
    return 1
