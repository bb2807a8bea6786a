import LabelPress.Command
import LabelPress.Fault
import LabelPress.Input.Walk

/-!
# Readers

A reader is a cursor on a source together with the encoding in which commands are read. It owns the
source: once the commands have been read, whatever came of it, the source is closed.
-/

namespace LabelPress

structure Reader where
  cursor : Cursor
  encoding : Encoding

namespace Reader

def encodingOf (library : Codec.Library) (name : Text) : Except Fault Encoding :=
  match Encoding.ofName library name with
  | .ok e => .ok e
  | .error fault => .error (.encoding name fault)

/-- A reader on a source. The source is left alone if there is no encoding of that name. -/
def ofSource (library : Codec.Library) (encoding : Text) : EStateM Fault Source Reader := fun s =>
  match encodingOf library encoding with
  | .error fault => .error fault s
  | .ok encoding =>
    match Cursor.open s with
    | .ok cursor s => .ok { cursor, encoding } s
    | .error fault s => .error (.input fault) s

def ofText (library : Codec.Library) (encoding : Text) (text : String) : Except Fault Reader := do
  let e ← encodingOf library encoding
  match e.encode text with
  | .error (.refused _) => throw .unencodable
  | .error (.failed message) => throw (.input (.codec message))
  | .ok bytes =>
    match ofSource library encoding { bytes := bytes.toArray } with
    | .ok r _ => return r
    | .error fault _ => throw fault

/-- All commands from the first byte on, and the reader with its source closed. -/
def commands (r : Reader) : Reader × Except Fault (List Command) :=
  match Input.readAll r.encoding r.cursor with
  | .ok tokens c => ({ r with cursor := c.close }, .ok (tokens.map Command.parse))
  | .error fault c => ({ r with cursor := c.close }, .error (.input fault))

end Reader

end LabelPress
