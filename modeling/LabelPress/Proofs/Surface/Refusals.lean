import LabelPress.Proofs.Label.Blame
import LabelPress.Proofs.Surface.Taken

/-!
# Why a surface refuses a call

A surface refuses a call for a value in it, for a content that cannot be a barcode, for want of a
page, or because the canvas does not carry out an instruction (`Surface.ordinary_draw`). It never
blames the drawing that the call was taken from, nor anything that has to do with files.

The lemmas follow the operations of which a page makes its calls, one for each way in which
operations are put together.
-/

namespace LabelPress

/-- The faults with which calls are refused. -/
def Fault.IsRefusal : Fault → Prop
  | .argument e => e.NamesVerb
  | .value _ | .noDocument | .canvas _ => True
  | _ => False

namespace Outcome

variable {S T : Type} {o : Outcome S}

/-- What was asked has been done, or was refused as calls are. -/
def IsOrdinary (o : Outcome S) : Prop :=
  ∀ f, o.fault = some f → f.IsRefusal

namespace IsOrdinary

theorem of_none (h : o.fault = none) : o.IsOrdinary := by
  intro f hf
  rw [h] at hf
  cases hf

theorem done (s : S) : (Outcome.done s).IsOrdinary :=
  of_none rfl

theorem refused (s : S) {f : Fault} (hf : f.IsRefusal) : (Outcome.refused s f).IsOrdinary := by
  rintro g ⟨⟩
  exact hf

/-- A request that needs a value ends ordinarily if it does so with every value, for a value that
cannot be had is refused. -/
theorem withValue {A : Type} (s : S) (x : Except ValueFault A) {f : A → Outcome S}
    (hf : ∀ a, (f a).IsOrdinary) : (Outcome.withValue s x f).IsOrdinary := by
  cases x with
  | ok a => exact hf a
  | error e => exact refused s trivial

theorem ofValue (s : S) (x : Except ValueFault S) : (Outcome.ofValue s x).IsOrdinary :=
  withValue s x done

/-- Two requests in a row end ordinarily if each of them does. -/
theorem andThen (ho : o.IsOrdinary) {f : S → Outcome S} (hf : ∀ s, (f s).IsOrdinary) :
    (o.andThen f).IsOrdinary := by
  cases h : o.fault with
  | some x => rwa [andThen_of_some h]
  | none =>
    rw [andThen_of_none h]
    exact hf o.state

/-- What is done even after a fault does not make the fault a different one. -/
theorem afterwards (ho : o.IsOrdinary) {f : S → Outcome S} (hf : ∀ s, (f s).IsOrdinary) :
    (o.afterwards f).IsOrdinary := by
  intro x hx
  have hor : (f o.state).fault.or o.fault = some x := hx
  cases hlast : (f o.state).fault with
  | none =>
    rw [hlast, Option.none_or] at hor
    exact ho x hor
  | some y =>
    rw [hlast, Option.some_or] at hor
    exact hf o.state x (hlast.trans hor)

/-- A fault may be told in other words, if these are a refusal again. -/
theorem recast (ho : o.IsOrdinary) {f : Fault → Fault} (hf : ∀ x, x.IsRefusal → (f x).IsRefusal) :
    (o.recast f).IsOrdinary := by
  intro x hx
  obtain ⟨y, hy, rfl⟩ := Option.map_eq_some_iff.1 hx
  exact hf y (ho y hy)

theorem map (ho : o.IsOrdinary) (f : S → T) : (o.map f).IsOrdinary :=
  ho

end IsOrdinary

end Outcome

open Outcome (IsOrdinary)

namespace Page

variable (p : Page)

/-- An instruction is performed, or the canvas refuses it. -/
theorem ordinary_perform (i : Instruction) : (p.perform i).IsOrdinary := by
  unfold perform
  split
  · exact .done _
  · exact .refused _ trivial

theorem ordinary_performAll (is : List Instruction) : (p.performAll is).IsOrdinary := by
  induction is generalizing p with
  | nil => exact .done p
  | cons i is ih => exact (ordinary_perform p i).andThen ih

/-- Before a document is begun a request is refused; afterwards it ends as it does on the page. -/
theorem ordinary_onDocument {f : Page → Outcome Page} (hf : ∀ q, (f q).IsOrdinary) :
    (p.onDocument f).IsOrdinary := by
  unfold onDocument
  split
  · exact hf p
  · exact .refused p trivial

theorem ordinary_createDocument (width height : Json) :
    (p.createDocument width height).IsOrdinary :=
  .withValue _ _ fun _ => (ordinary_perform _ _).andThen fun _ => ordinary_performAll _ _

theorem ordinary_setFontSize (points : Json) : (p.setFontSize points).IsOrdinary :=
  .withValue _ _ fun _ => ordinary_onDocument _ fun q => ordinary_perform q _

/-- A text is drawn, or refused for its characters or by the canvas. -/
theorem ordinary_drawText (text : Argument) : (p.drawText text).IsOrdinary := by
  unfold drawText
  split
  · exact .refused p trivial
  · exact ordinary_onDocument p fun q => ordinary_performAll q _

/-- A rectangle is drawn, or refused for a side or by the canvas. -/
theorem ordinary_drawRect (x y width height thickness : Json) (ink : Argument) :
    (p.drawRect x y width height thickness ink).IsOrdinary := by
  refine ordinary_onDocument p fun q => .withValue _ _ fun c => ?_
  refine (ordinary_perform q _).andThen fun r => .withValue _ _ fun t => ?_
  exact (ordinary_perform r _).andThen fun s => .withValue _ _ fun i => ordinary_perform s i

theorem ordinary_place (o : Orientation) (width height barHeight module : Float) :
    (p.place o width height barHeight module).IsOrdinary := by
  refine (ordinary_perform p _).andThen fun q => ?_
  exact (ordinary_performAll q _).afterwards fun r => ordinary_perform r _

theorem ordinary_drawFormatted (content : Argument) (f : Formatting) :
    (p.drawFormatted content f).IsOrdinary := by
  refine .withValue _ _ fun _ => (ordinary_perform p _).andThen fun q => .withValue _ _ fun o => ?_
  exact ordinary_onDocument _ fun r => ordinary_place r o _ _ _ _

/-- A barcode is drawn, or refused for its formatting, for its content or by the canvas. -/
theorem ordinary_drawBarcode (content style : Argument) :
    (p.drawBarcode content style).IsOrdinary := by
  unfold drawBarcode
  split
  · exact .of_none rfl
  split
  · -- a content that is refused as unsuitable is blamed on the argument
    refine IsOrdinary.andThen (.of_none rfl) fun q => (ordinary_drawFormatted q _ _).recast ?_
    intro x hx
    unfold contentFault
    split
    · exact ⟨.barcode, rfl⟩
    · exact hx
  · exact .refused p trivial

/-- Every call on a page ends ordinarily. -/
theorem ordinary_draw (c : Call) : (p.draw c).IsOrdinary := by
  cases c with
  | createDocument => exact ordinary_createDocument p _ _
  | moveCursor => exact .ofValue p _
  | setFontSize => exact ordinary_setFontSize p _
  | drawText => exact ordinary_drawText p _
  | drawRect => exact ordinary_drawRect p _ _ _ _ _ _
  | drawBarcode => exact ordinary_drawBarcode p _ _

end Page

namespace Surface

theorem ordinary_draw (c : Call) (s : Surface) : (s.draw c).IsOrdinary := by
  cases s with
  | recording r => exact (IsOrdinary.ofValue r _).map _
  | trace t => exact (IsOrdinary.ofValue _ _).map _
  | page p => exact (Page.ordinary_draw p c).map _

theorem ordinary_drawAll (cs : List Call) (s : Surface) : (s.drawAll cs).IsOrdinary := by
  induction cs generalizing s with
  | nil => exact .done s
  | cons c cs ih => exact (ordinary_draw c s).andThen ih

end Surface

end LabelPress
