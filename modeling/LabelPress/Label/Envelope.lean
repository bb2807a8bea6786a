import LabelPress.Command
import LabelPress.Fault

/-!
# The envelope of a label

The commands of a label stand between `XA` and `XZ`, and neither of these stands anywhere else.
-/

namespace LabelPress.Label

/-- Whether a command begins or ends a label. -/
def isEnvelope (c : Command) : Bool :=
  c.name == "XA" || c.name == "XZ"

/-- The commands inside the envelope, in order. -/
def interior (commands : List Command) : Except EnvelopeFault (List Command) :=
  match commands with
  | [] => .error (.notBegun none)
  | first :: rest =>
    if first.name ≠ "XA" then .error (.notBegun (some first.name))
    else
      match rest.getLast? with
      | none => .error (.notEnded none)
      | some last =>
        if last.name ≠ "XZ" then .error (.notEnded (some last.name))
        else
          match rest.dropLast.find? isEnvelope with
          | none => .ok rest.dropLast
          | some c => .error (if c.name = "XA" then .nested else .endedEarly)

end LabelPress.Label
