import LabelPress.Decimal.Reader
import LabelPress.Fault
import LabelPress.Text.Capital

/-!
# Arguments of commands

An argument that is missing, empty or blank is omitted. One that is given is an integer within
bounds, one of a few letters in either case, or the ratio of a barcode.
-/

namespace LabelPress.Argument

/-- The argument at a place without the white space around it, unless it is omitted. -/
def get? (args : List Text) (i : Nat) : Option Text :=
  ((args[i]?).map Text.trim).filter (!·.isEmpty)

def integerWithin (command field : String) (text : Text) (low high : Int) (bound : Bound) :
    Except ArgumentFault Int :=
  match Decimal.integer? text with
  | none => .error ⟨command, field, .notInteger text⟩
  | some n =>
    if n < low ∨ high < n then .error ⟨command, field, .outside (.int n) bound⟩ else .ok n

/-- An integer between two bounds, which may be omitted. -/
def integer (command field : String) (arg : Option Text) (default low high : Int) :
    Except ArgumentFault Int :=
  match arg with
  | none => .ok default
  | some text => integerWithin command field text low high (.between low high)

/-- A length that is not less than the thickness of its line, which it is if it is omitted. -/
def extent (command field : String) (arg : Option Text) (thickness high : Int) :
    Except ArgumentFault Int :=
  match arg with
  | none => .ok thickness
  | some text =>
    integerWithin command field text thickness high (.fromThickness thickness high)

/-- One of a few choices, in either case, which may be omitted. -/
def choice (command field : String) (arg : Option Text) (default : String)
    (choices : List String) : Except ArgumentFault String :=
  match arg with
  | none => .ok default
  | some text =>
    match choices.find? fun (c : String) => c == text.upper with
    | some chosen => .ok chosen
    | none => .error ⟨command, field, .outside (.string text) (.oneOf choices)⟩

/-- The ratio of wide to narrow bars, which may be omitted. -/
def ratio (command field : String) (arg : Option Text) (default : Float) :
    Except ArgumentFault Float :=
  match arg with
  | none => .ok default
  | some text =>
    match Decimal.number? text with
    | none => .error ⟨command, field, .notNumber text⟩
    | some x =>
      if x < 2.0 || 3.0 < x then .error ⟨command, field, .outside (.float x) .ratio⟩ else .ok x

theorem get?_nil (i : Nat) : get? [] i = none := rfl

end LabelPress.Argument
