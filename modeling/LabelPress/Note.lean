import LabelPress.Drawing.Basic

/-!
# Notes

What a run tells a user who asks for details: decisions that are neither drawn nor faults.
-/

namespace LabelPress

inductive Note where
  | parsed (count : Nat)
  | ignored (name : Text) (args : List Text)
  | namedFont (args : List Text)
  | barcode (content : Text) (formatting : Formatting)
  | noContent
  | lineAbove

namespace Note

def origin : Note → String
  | .parsed _ => "zpl_interpreter.zpl"
  | .ignored .. | .namedFont _ | .barcode .. => "zpl_interpreter.interpreter"
  | .noContent | .lineAbove => "backends.pdf_backend"

/-- Texts as a list in the notation of messages. -/
def shownTexts (texts : List Text) : String :=
  (Json.array (texts.map .string)).quoted

def message : Note → String
  | .parsed count => s!"Parsed {count} commands"
  | .ignored name args => s!"Ignoring unsupported command ^{name} {shownTexts args}"
  | .namedFont args => s!"Font selection by name is not supported, ignoring ^A@ {shownTexts args}"
  | .barcode content formatting =>
    s!"Rendering barcode {content.quote} with {formatting.shown}"
  | .noContent => "Skipping barcode without field data"
  | .lineAbove => "Interpretation line above the bars is not drawn"

def line (n : Note) : String :=
  s!"DEBUG {n.origin}: {n.message}"

end Note

end LabelPress
