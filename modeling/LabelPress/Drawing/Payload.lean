import LabelPress.Drawing.Primitive
import LabelPress.Schema.Basic

/-!
# Recorded drawings as JSON

What a recorded drawing looks like: a version, an optional source and a list of entries, each the
name of a primitive and its arguments by name.
-/

namespace LabelPress.Drawing

/-- The demands on one entry. -/
def entrySchema : Schema := .all [
  .type [.object],
  .required [.string "name", .string "args"],
  .properties [
    ("name", .all [.enum (Primitive.all.map fun p => .string p.name)]),
    ("args", .all [.type [.object]])]]

/-- The demands on a recorded drawing. -/
def schema : Schema := .all [
  .type [.object],
  .required [.string "version", .string "commands"],
  .properties [
    ("version", .all [.type [.string]]),
    ("source", .all [.type [.string]]),
    ("commands", .all [.type [.array], .items entrySchema])]]

end LabelPress.Drawing
