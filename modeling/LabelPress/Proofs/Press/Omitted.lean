import LabelPress.Proofs.Label.Omitted
import LabelPress.Proofs.Press.Watch

/-!
# Nothing comes of what is not read

Two histories by which the same is read, command by command, are one history to a press: the same
calls reach its surface, every command fails or goes through for the same reason, and the press is
left the same (`Press.omitted_after`). Only the arguments that wait for the end of a barcode field
may be written in two ways, and with them the raw part of the formatting. A trace and a page do not
look at that part, and a recording writes it down; no surface refuses a call because of it
(`Surface.matches_draw`).

The two runs are taken side by side. What is kept is that the presses match, by every event of a
step (`Press.matches_play`) and so by every command.
-/

namespace LabelPress

/-! ## Two operations side by side -/

/-- Two answers that are related, or fail with the same error. -/
inductive Except.Alike {E A B : Type} (R : A → B → Prop) : Except E A → Except E B → Prop where
  | ok {a : A} {b : B} (h : R a b) : Alike R (.ok a) (.ok b)
  | error (e : E) : Alike R (.error e) (.error e)

namespace Except.Alike

variable {E A B C D : Type} {R : A → B → Prop} {Q : C → D → Prop}

theorem same (x : Except E A) : Alike (· = ·) x x := by
  cases x with
  | ok a => exact .ok rfl
  | error e => exact .error e

/-- Answers that are alike go on in like ways. -/
theorem bind {x : Except E A} {y : Except E B} {f : A → Except E C} {g : B → Except E D}
    (h : Alike R x y) (hf : ∀ a b, R a b → Alike Q (f a) (g b)) : Alike Q (x >>= f) (y >>= g) := by
  cases h with
  | ok h => exact hf _ _ h
  | error e => exact .error e

end Except.Alike

namespace Outcome

variable {S T : Type} {R : S → S → Prop} {o o' : Outcome S}

/-- Two outcomes with related states, both done or both refused for the same reason. -/
structure Alike (R : S → S → Prop) (o o' : Outcome S) : Prop where
  state : R o.state o'.state
  fault : o.fault = o'.fault

namespace Alike

/-- Outcomes that are alike go on in like ways, from states that are only related. -/
theorem andThen {f g : S → Outcome S} (h : Alike R o o')
    (hf : ∀ s t, R s t → Alike R (f s) (g t)) : Alike R (o.andThen f) (o'.andThen g) := by
  have ho := h.fault
  cases hfault : o.fault with
  | some x =>
    rw [andThen_of_some hfault, andThen_of_some (ho.symm.trans hfault)]
    exact h
  | none =>
    have hrest := hf _ _ h.state
    rw [andThen_of_none hfault, andThen_of_none (ho.symm.trans hfault)]
    exact ⟨hrest.state, hrest.fault⟩

theorem map {Q : T → T → Prop} {f g : S → T} (h : Alike R o o')
    (hf : ∀ s t, R s t → Q (f s) (g t)) : Alike Q (o.map f) (o'.map g) :=
  ⟨hf _ _ h.state, h.fault⟩

/-- A state that is given or refused likewise is an outcome alike. -/
theorem ofValue {s t : S} {x y : Except ValueFault S} (hs : R s t) (h : Except.Alike R x y) :
    Alike R (ofValue s x) (ofValue t y) := by
  cases h with
  | ok h => exact ⟨h, rfl⟩
  | error e => exact ⟨hs, rfl⟩

end Alike

end Outcome

open Outcome (Alike)

/-! ## Surfaces -/

/-- Entries that are equal but for the raw part of the formatting of a barcode. -/
inductive Entry.Matches : Entry → Entry → Prop where
  | same (e : Entry) : Matches e e
  | barcode (content : Json) (f : Formatting) (raw : Json) :
    Matches (.ofPrimitive .drawBarcode [content, f.toJson])
      (.ofPrimitive .drawBarcode [content, { f with raw }.toJson])

namespace Recording

variable {r s : Recording} {c d : Call}

/-- Recordings that are equal but for the raw parts in their entries. -/
inductive Matches (r : Recording) : Recording → Prop where
  | intro (entries : Array Entry) (h : List.Forall₂ Entry.Matches r.entries.toList entries.toList) :
    Matches r { r with entries }

theorem Matches.refl (r : Recording) : r.Matches r :=
  .intro r.entries (List.forall₂_same.2 fun e _ => .same e)

/-- Recordings that match still do after matching entries. -/
theorem Matches.add {e e' : Entry} (h : r.Matches s) (he : e.Matches e') :
    (r.add e).Matches (s.add e') := by
  obtain ⟨entries, hentries⟩ := h
  refine ⟨entries.push e', ?_⟩
  rw [toList_entries_add, Array.toList_push]
  exact List.rel_append hentries (.cons he .nil)

/-- The entries do not matter for the page size and the cursor. -/
theorem place_matches (h : r.Matches s) (c : Call) :
    Except.Alike Matches (place c r) (place c s) := by
  obtain ⟨entries, hentries⟩ := h
  cases c with
  | createDocument x y | moveCursor x y =>
    refine .bind (.same x.toFloat) fun x _ hx => .bind (.same y.toFloat) fun y _ hy => ?_
    subst hx hy
    exact .ok ⟨entries, hentries⟩
  | setFontSize | drawText | drawRect | drawBarcode => exact .ok ⟨entries, hentries⟩

/-- Calls that match are recorded by matching entries, or refused for the same reason. -/
theorem entry_matches (h : c.Matches d) : Except.Alike Entry.Matches (entry c) (entry d) := by
  cases h with
  | barcode content f raw => exact .ok (.barcode content.toJson f raw)
  | same =>
    cases entry c with
    | ok e => exact .ok (.same e)
    | error v => exact .error v

/-- Matching calls on matching surfaces have the same outcome. -/
theorem matches_draw (hr : r.Matches s) (hc : c.Matches d) :
    Alike Matches (r.draw c) (s.draw d) := by
  have hplace : place d s = place c s := by
    cases hc with
    | same => rfl
    | barcode => rfl
  unfold draw
  rw [hplace]
  exact .ofValue hr <| .bind (entry_matches hc) fun _ _ he =>
    .bind (place_matches hr c) fun _ _ h => .ok (h.add he)

end Recording

namespace Surface

variable {s t : Surface} {c d : Call} {cs ds : List Call}

/-- Surfaces that are equal but for the raw parts that a recording has written down. -/
inductive Matches : Surface → Surface → Prop where
  | recording {r s : Recording} (h : r.Matches s) : Matches (.recording r) (.recording s)
  | trace (t : Trace) : Matches (.trace t) (.trace t)
  | page (p : Page) : Matches (.page p) (.page p)

theorem Matches.refl (s : Surface) : s.Matches s := by
  cases s with
  | recording r => exact .recording (.refl r)
  | trace t => exact .trace t
  | page p => exact .page p

/-- Only a recording looks at the raw part of a formatting, and it refuses nothing because of it. -/
theorem matches_draw (hs : s.Matches t) (hc : c.Matches d) :
    Alike Matches (s.draw c) (t.draw d) := by
  -- only a recording looks at all of the formatting
  cases hs with
  | recording hr => exact (Recording.matches_draw hr hc).map fun _ _ h => .recording h
  | trace t =>
    have hsame : (trace t).draw d = (trace t).draw c := by
      cases hc with
      | same => rfl
      | barcode => rfl
    rw [hsame]
    exact ⟨.trace _, rfl⟩
  | page p =>
    have hsame : (page p).draw d = (page p).draw c := by
      cases hc with
      | same => rfl
      | barcode => rfl
    rw [hsame]
    exact ⟨.page _, rfl⟩

/-- Of calls that match, those reach surfaces that match which match. -/
theorem matches_reached (hs : s.Matches t) (hcs : List.Forall₂ Call.Matches cs ds) :
    List.Forall₂ Call.Matches (s.reached cs) (t.reached ds) := by
  induction hcs generalizing s t with
  | nil => exact .nil
  | cons hc _ ih =>
    have hdraw := matches_draw hs hc
    unfold reached
    rw [← hdraw.fault]
    split
    · exact .cons hc .nil
    · exact .cons hc (ih hdraw.state)

end Surface

/-! ## Presses -/

namespace Press

variable {p q : Press} {s t : Step} {cs ds : List Command}

/-- Presses that are equal but for the arguments that are kept for a barcode, and what a recording
has written down of them. -/
structure Matches (p q : Press) : Prop where
  label : p.label.Matches q.label
  surface : p.surface.Matches q.surface

theorem Matches.refl (p : Press) : p.Matches p :=
  ⟨.refl _, .refl _⟩

/-- By induction on the events: if a call is refused, it is refused on both sides. -/
theorem matches_play {es fs : List Event} (h : List.Forall₂ Event.Matches es fs)
    (hp : p.Matches q) : Alike Matches (play es p) (play fs q) := by
  induction h generalizing p q with
  | nil => exact ⟨hp, rfl⟩
  | cons he _ ih =>
    cases he with
    | note n n' => exact .andThen ⟨hp, rfl⟩ fun _ _ => ih
    | @call c d l m hc hl =>
      have hdraw := Surface.matches_draw hp.surface hc
      have hsame := hdraw.fault
      -- matching calls are refused together or not at all
      cases hfault : (p.surface.draw c).fault with
      | some x =>
        rw [play_refused hfault, play_refused (hsame.symm.trans hfault)]
        exact hdraw.map fun _ _ h => ⟨hl, h⟩
      | none =>
        rw [play_drawn hfault, play_drawn (hsame.symm.trans hfault)]
        exact (hdraw.map fun _ _ h => ⟨hp.label, h⟩).andThen fun _ _ => ih

theorem matches_take (hs : s.Matches t) (hp : p.Matches q) : Alike Matches (p.take s) (q.take t) :=
  (matches_play hs.events hp).andThen fun _ _ h => ⟨⟨hs.label, h.surface⟩, hs.fault⟩

/-- Commands by which the same is read keep presses matching. -/
theorem matches_dispatch {c d : Command} (h : c.ReadsAlike d) (hp : p.Matches q) :
    Alike Matches (p.dispatch c.name c.args) (q.dispatch d.name d.args) :=
  matches_take (Label.matches_step hp.label h) hp

/-! ## Histories -/

/-- So do such commands in a row. -/
theorem matches_after (h : List.Forall₂ Command.ReadsAlike cs ds) (hp : p.Matches q) :
    (after cs p).Matches (after ds q) := by
  induction h generalizing p q with
  | nil => exact hp
  | cons hc _ ih => exact ih (matches_dispatch hc hp).state

/-- They are refused at the same places, for the same reasons. -/
theorem faults_congr (h : List.Forall₂ Command.ReadsAlike cs ds) (hp : p.Matches q) :
    faults cs p = faults ds q := by
  induction h generalizing p q with
  | nil => rfl
  | cons hc _ ih =>
    have hfirst := matches_dispatch hc hp
    exact congrArg₂ List.cons hfirst.fault (ih hfirst.state)

/-- Which calls reach the surfaces is said by the steps, and by where the surfaces stand before
them. -/
theorem matches_calls (h : List.Forall₂ Command.ReadsAlike cs ds) (hp : p.Matches q) :
    List.Forall₂ Call.Matches (p.calls cs) (q.calls ds) := by
  induction h generalizing p q with
  | nil => exact .nil
  | cons hc _ ih =>
    have hstep := Label.matches_step hp.label hc
    have hfirst := Surface.matches_reached hp.surface hstep.calls
    exact List.rel_append hfirst (ih (matches_dispatch hc hp).state)

/-- It does not matter how arguments are left out, nor what stands around them or behind the last
one that is read. Commands of the same names that are given the same where they read, once white
space is taken away and nothing is put for an argument that is missing, come to the same on every
press, whatever state it is in: the same calls reach the surface, refused ones included, each
command fails with the same fault or goes through, and label and surface are the same afterwards.
The histories may end anywhere, so this holds behind every command. Only the arguments that are kept
for a barcode stay as they were written, and with them the raw part of its formatting. -/
theorem omitted_after (h : List.Forall₂ Command.ReadsAlike cs ds) (p : Press) :
    List.Forall₂ Call.Matches (p.calls cs) (p.calls ds) ∧ faults cs p = faults ds p ∧
      (after cs p).Matches (after ds p) := by
  have hp : p.Matches p := .refl p
  exact ⟨matches_calls h hp, faults_congr h hp, matches_after h hp⟩

/-- Blanks of several kinds, commas at the end and more arguments than are read. The arguments that
are kept for the barcode differ; the last command but one is refused on both sides. -/
theorem omitted_after_blanks :
    let p := (start (some (.int 8)) (.int 100) (.int 50) (Surface.Form.pdf.fresh "")).state
    let cs := List.map Command.parse
      ["^FO10", "^A0,30", "^BC,50", "^BY,,20", "^FDa,b", "^FS", "^GB5,1,9", "^LH"]
    let ds := List.map Command.parse
      ["^FO 10,\t,9", "^A0, 30 ,", "^BC\u2003, 50 ,,,,,,x", "^BY,\u00a0,20,", "^FDa,b", "^FS1",
        "^GB 5,1,9", "^LH ,,"]
    List.Forall₂ Command.ReadsAlike cs ds ∧
      (faults cs p).map (·.isSome) = [false, false, false, false, false, false, true, false] ∧
      (after (cs.take 3) p).label.barcodeArgs ≠ (after (ds.take 3) p).label.barcodeArgs ∧
      List.Forall₂ Call.Matches (p.calls cs) (p.calls ds) ∧ faults cs p = faults ds p ∧
      (after cs p).Matches (after ds p) := by
  intro p cs ds
  have hread : List.Forall₂ Command.ReadsAlike cs ds :=
    .cons (by decide) <| .cons (by decide) <| .cons (by decide) <| .cons (by decide) <|
      .cons (.refl _) <| .cons (by decide) <| .cons (by decide) <| .cons (by decide) .nil
  exact ⟨hread, by decide +kernel, by decide, omitted_after hread p⟩

end Press

end LabelPress
