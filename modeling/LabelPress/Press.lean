import LabelPress.Label.Action
import LabelPress.Label.Envelope
import LabelPress.Surface

/-!
# Presses

A press is a label together with the surface on which it is drawn. It takes the steps of the label
one after another: each call is handed to the surface, and the first refusal or fault ends the
step.
-/

namespace LabelPress

structure Press where
  label : Label
  surface : Surface

namespace Press

/-- Hands the calls among events to the surface, up to the first that is refused. -/
def play : List Event → Press → Outcome Press
  | [], p => .done p
  | .note n :: es, p => (Outcome.noted p n).andThen (play es)
  | .call c refused :: es, p =>
    let o := p.surface.draw c
    match o.fault with
    | some _ => o.map fun s => { label := refused, surface := s }
    | none => (o.map fun s => { p with surface := s }).andThen (play es)

def take (s : Step) (p : Press) : Outcome Press :=
  (play s.events p).andThen fun p =>
    { state := { p with label := s.label }, fault := s.fault }

/-- A press with a new label on a surface. -/
def start (resolution : Option Number) (width height : Json) (surface : Surface) :
    Outcome Press :=
  take (Label.start resolution width height) { label := { resolution }, surface }

def dispatch (name : Text) (args : List Text) (p : Press) : Outcome Press :=
  p.take (p.label.step name args)

/-- Carries out commands up to the first that fails. -/
def dispatchAll : List Command → Press → Outcome Press
  | [], p => .done p
  | c :: cs, p => (p.dispatch c.name c.args).andThen (dispatchAll cs)

/-- Carries out a label, if its envelope is in order. -/
def run (commands : List Command) (p : Press) : Outcome Press :=
  match Label.interior commands with
  | .error fault => .refused p (.envelope fault)
  | .ok inner => p.dispatchAll inner

end Press

end LabelPress
