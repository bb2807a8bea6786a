import LabelPress.Input.Reader
import LabelPress.Press
import LabelPress.Settings

/-!
# Conversion

The whole way from a source with commands to a document: the commands are read, carried out on a
new label, and the surface is finished. The surface is part of the answer even if the way ends
early.
-/

namespace LabelPress

structure Conversion where
  surface : Surface
  notes : List Note := []
  result : Except Fault Document

namespace Conversion

def ofCommands (commands : List Command) (resolution : Option Number) (width height : Json)
    (surface : Surface) : Conversion :=
  let o := (Press.start resolution width height surface).andThen (Press.run commands)
  match o.fault with
  | some fault => { surface := o.state.surface, notes := o.notes, result := .error fault }
  | none =>
    let (surface, result) := o.state.surface.finish
    { surface, notes := o.notes, result }

def ofReader (r : Reader) (resolution : Option Number) (width height : Json)
    (surface : Surface) : Conversion :=
  match r.commands.2 with
  | .error fault => { surface, result := .error fault }
  | .ok commands =>
    let c := ofCommands commands resolution width height surface
    { c with notes := .parsed commands.length :: c.notes }

/-- Converts what a reader reads to a label with these settings. -/
def withSettings (r : Reader) (s : Settings) (surface : Surface) : Conversion :=
  ofReader r (some s.resolution) (.number s.width) (.number s.height) surface

end Conversion

end LabelPress
