import LabelPress.Proofs.Conversion.Stopped
import LabelPress.Proofs.Surface.Refusals
import LabelPress.Proofs.Surface.Valid

/-!
# How a conversion ends

However a conversion ends, it leaves a surface of the kind that it was given, and a valid recording
stays valid (`Conversion.after_withSettings`). If it ends without a document, no schema is to blame
(`Conversion.ofPrinting_withSettings`): commands that cannot be read, an envelope that is not in order,
and calls that a surface refuses are all that can stop it.
-/

namespace LabelPress

/-- A fault of reading, carrying out or drawing. It is no violation of a schema, and if it lies in an
argument it names the command. -/
def Fault.OfPrinting : Fault → Prop
  | .violation _ => False
  | .argument e => e.NamesVerb
  | _ => True

theorem Fault.IsRefusal.ofPrinting {x : Fault} (h : x.IsRefusal) : x.OfPrinting := by
  cases x with
  | argument e => exact h
  | violation v => cases h
  | _ => trivial

namespace Surface

theorem After.isWritten {s t : Surface} (h : s.After t) (hs : s.IsWritten) : t.IsWritten := by
  cases h with
  | recording | trace => trivial
  | page => cases hs

/-- All new surfaces but pages are written. -/
theorem isWritten_fresh {form : Form} (h : form ≠ .pdf) (source : String) :
    (form.fresh source).IsWritten := by
  cases form with
  | json | trace => trivial
  | pdf => exact absurd rfl h

/-- A written surface ends as a text. -/
theorem text_of_finish {s : Surface} {document : Document} (hs : s.IsWritten)
    (h : s.finish.2 = .ok document) : ∃ text, document = .text text := by
  cases s with
  | recording r =>
    cases h
    exact ⟨_, rfl⟩
  | trace t =>
    obtain ⟨text, -, rfl⟩ := Except.map_eq_ok h
    exact ⟨text, rfl⟩
  | page p => cases hs

/-- What keeps a drawing from being finished. -/
theorem ofPrinting_finish (s : Surface) : FailsOnly Fault.OfPrinting s.finish.2 := by
  intro x h
  cases s with
  | recording r => cases h
  | trace t =>
    cases finish_error (s := .trace t) trivial h
    trivial
  | page p =>
    change Document.page <$> p.finish.2 = .error x at h
    -- a page that was finished before gives its document again, so only the first time can fail
    unfold Page.finish at h
    split at h
    · cases h
    · simp only at h
      split at h
      · next fault hfault =>
        cases h
        exact (Page.ordinary_onDocument p (fun q => Page.ordinary_performAll q _) x hfault).ofPrinting
      · cases h

end Surface

namespace Conversion

/-- Commands stop for their envelope, for an argument or for a value. -/
theorem ofPrinting_carried {s : Settings} {commands : List Command} {x : Fault}
    (h : (carried s commands).fault = some x) : x.OfPrinting := by
  unfold carried Label.enveloped at h
  split at h
  · cases h
    trivial
  · next inner _ =>
    cases (Label.regular_steps inner _).fault x h with
    | argument e =>
      obtain ⟨c, -, v, -, hv⟩ := Label.command_of_steps h
      exact ⟨v, hv⟩
    | value e _ => trivial

/-- The ways in which a conversion ends: no commands are read, or it stops behind some calls, or the
drawing is finished. -/
inductive Ending (before : Surface) : Surface → Except Fault Document → Prop where
  | unread (fault : InputFault) : Ending before before (.error (.input fault))
  | stopped (calls : List Call) {x : Fault} (h : x.OfPrinting) :
    Ending before (before.drawAll calls).state (.error x)
  | finished (calls : List Call) :
    Ending before (before.drawAll calls).state.finish.1 (before.drawAll calls).state.finish.2

/-- A conversion that ends with a document has finished the surface; one that does not has left it
somewhere on the way. -/
theorem ending_withSettings (r : Reader) (s : Settings) (surface : Surface) :
    Ending surface (withSettings r s surface).surface (withSettings r s surface).result := by
  cases hread : r.commands.2 with
  | error y =>
    obtain ⟨⟨fault, rfl⟩, hresult, -, hsurface⟩ := withSettings_of_error s surface hread
    rw [hresult, hsurface]
    exact .unread fault
  | ok commands =>
    have hdrawn := withSettings_of_ok s surface hread
    split at hdrawn
    · next x hfault =>
      obtain ⟨hsurface, hresult⟩ := Prod.mk.inj hdrawn
      rw [hsurface, hresult]
      refine .stopped _ ?_
      -- the surface has refused a call, or else the commands have stopped
      rcases Option.or_eq_some_iff.1 hfault with hrefused | ⟨-, hcarried⟩
      · exact (Surface.ordinary_drawAll _ surface x hrefused).ofPrinting
      · exact ofPrinting_carried hcarried
    · obtain ⟨hsurface, hresult⟩ := Prod.mk.inj hdrawn
      rw [hsurface, hresult]
      exact .finished _

namespace Ending

variable {before left : Surface} {result : Except Fault Document}

theorem left_after (h : Ending before left result) : before.After left := by
  cases h with
  | unread => exact .refl before
  | stopped calls => exact Surface.after_drawAll calls before
  | finished calls => exact (Surface.after_drawAll calls before).trans (Surface.after_finish _)

/-- A conversion fails with nothing that the tool would not print. -/
theorem ofPrinting (h : Ending before left result) : FailsOnly Fault.OfPrinting result := by
  cases h with
  | unread => exact .error trivial
  | stopped calls h => exact .error h
  | finished calls => exact Surface.ofPrinting_finish _

/-- From a written surface comes a text. -/
theorem text (h : Ending before left result) (hbefore : before.IsWritten) {document : Document}
    (hresult : result = .ok document) : ∃ text, document = .text text := by
  cases h with
  | unread => cases hresult
  | stopped => cases hresult
  | finished calls =>
    exact Surface.text_of_finish ((Surface.after_drawAll calls before).isWritten hbefore) hresult

end Ending

/-- A conversion goes on from its surface. -/
theorem after_withSettings (r : Reader) (s : Settings) (surface : Surface) :
    surface.After (withSettings r s surface).surface :=
  (ending_withSettings r s surface).left_after

/-- What is converted on a valid recording leaves a valid recording. -/
theorem validate_withSettings (r : Reader) (s : Settings) {blank : Recording}
    (h : blank.validate = none) :
    ∃ filled, (withSettings r s (.recording blank)).surface = .recording filled ∧
      filled.validate = none := by
  have hafter := after_withSettings r s (.recording blank)
  generalize (withSettings r s (.recording blank)).surface = t at hafter ⊢
  cases hafter with
  | recording hvalid => exact ⟨_, rfl, hvalid h⟩

/-- A conversion without a document has not failed for a schema. -/
theorem ofPrinting_withSettings (r : Reader) (s : Settings) (surface : Surface) :
    FailsOnly Fault.OfPrinting (withSettings r s surface).result :=
  (ending_withSettings r s surface).ofPrinting

/-- What comes of a recording or a trace is a text. -/
theorem text_of_withSettings {r : Reader} {s : Settings} {surface : Surface} {document : Document}
    (hs : surface.IsWritten) (h : (withSettings r s surface).result = .ok document) :
    ∃ text, document = .text text :=
  (ending_withSettings r s surface).text hs h

end Conversion

end LabelPress
