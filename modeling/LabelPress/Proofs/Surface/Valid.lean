import LabelPress.Proofs.Schema.Drawing
import LabelPress.Proofs.Surface.Recorded

/-!
# Recordings stay valid

A recording is valid if it says a recorded drawing. Whether it does depends on its version, on its
source and on the names of its entries (`Recording.isDrawing_toJson`). A call that is recorded adds an
entry by the name of a primitive, and one that is refused adds none. So no call makes a valid recording
invalid, and neither do many calls or the finishing of a drawing (`Surface.after_drawAll`,
`Surface.after_finish`).
-/

namespace LabelPress

namespace Recording

variable {r s : Recording} {c : Call} {e : Entry} {entries : List Entry}

/-- A recording is a recorded drawing if it has a version, a source that is a text if there is one, and
entries of primitives. -/
theorem isDrawing_toJson :
    Drawing.IsDrawing r.toJson ↔
      (∃ t, r.version = .string t) ∧ (r.source.isTruthy = true → ∃ t, r.source = .string t) ∧
        ∀ e ∈ r.entries.toList, ∃ q : Primitive, e.name = .string q.name := by
  have hversion : r.toJson.get? "version" = some r.version := rfl
  have hcommands : r.toJson.get? "commands" = some (.array (r.entries.toList.map (·.toJson))) := rfl
  -- a source that is left out, and one that is empty, are not there
  have hsource : r.toJson.get? "source" = if r.source.isTruthy then some r.source else none := by
    unfold toJson
    split <;> rfl
  constructor
  · intro h
    refine ⟨?_, fun htruthy => ?_, fun e he => ?_⟩
    · obtain ⟨t, ht⟩ := h.version
      exact ⟨t, Option.some.inj (hversion.symm.trans ht)⟩
    · rw [if_pos htruthy] at hsource
      exact h.source _ hsource
    · obtain ⟨items, hitems, hall⟩ := h.commands
      cases hcommands.symm.trans hitems
      obtain ⟨q, args, hname, -⟩ := hall _ (List.mem_map_of_mem he)
      exact ⟨q, Option.some.inj hname⟩
  · rintro ⟨⟨t, ht⟩, htext, hentries⟩
    refine ⟨⟨t, hversion.trans (congrArg some ht)⟩, fun y hy => ?_, _, hcommands, ?_⟩
    · rw [hsource] at hy
      split at hy
      · next htruthy =>
        cases hy
        exact htext htruthy
      · cases hy
    · intro entry hentry
      obtain ⟨⟨name, args⟩, he, rfl⟩ := List.mem_map.1 hentry
      obtain ⟨q, hq⟩ := hentries _ he
      exact ⟨q, args, congrArg some hq, rfl⟩

/-- A recording passes its check if what it is written as is a drawing. -/
theorem validate_eq_none : r.validate = none ↔ Drawing.IsDrawing r.toJson := by
  unfold validate
  rw [Option.map_eq_none_iff, Drawing.check_eq_none]

/-- An entry has the name of the call that it was made for. -/
theorem name_of_entry (h : entry c = .ok e) : e.name = .string c.primitive.name := by
  -- whatever the values are, the entry is named after the call
  cases c with
  | createDocument | moveCursor =>
    obtain ⟨x, -, h⟩ := Except.bind_eq_ok.1 h
    obtain ⟨y, -, h⟩ := Except.bind_eq_ok.1 h
    cases h
    rfl
  | setFontSize =>
    obtain ⟨n, -, h⟩ := Except.bind_eq_ok.1 h
    cases h
    rfl
  | drawText =>
    cases h
    rfl
  | drawRect =>
    obtain ⟨x, -, h⟩ := Except.bind_eq_ok.1 h
    obtain ⟨y, -, h⟩ := Except.bind_eq_ok.1 h
    obtain ⟨w, -, h⟩ := Except.bind_eq_ok.1 h
    obtain ⟨v, -, h⟩ := Except.bind_eq_ok.1 h
    obtain ⟨t, -, h⟩ := Except.bind_eq_ok.1 h
    obtain ⟨ink, -, h⟩ := Except.bind_eq_ok.1 h
    cases h
    rfl
  | drawBarcode content style =>
    cases style with
    | formatting f =>
      cases h
      rfl
    | _ => cases h

/-- More entries of primitives leave a valid recording valid. -/
theorem validate_of_extends (h : Extends r s entries)
    (hentries : ∀ e ∈ entries, ∃ q : Primitive, e.name = .string q.name) (hr : r.validate = none) :
    s.validate = none := by
  rw [validate_eq_none, isDrawing_toJson] at hr ⊢
  rw [h.version, h.source, h.entries]
  refine ⟨hr.1, hr.2.1, fun e he => ?_⟩
  rcases List.mem_append.1 he with hbefore | hnew
  · exact hr.2.2 e hbefore
  · exact hentries e hnew

end Recording

/-- What is refused for a value leaves everything as it was. -/
theorem Outcome.state_ofValue {S : Type} {s : S} {x : Except ValueFault S} {fault : Fault}
    (h : (ofValue s x).fault = some fault) : (ofValue s x).state = s := by
  cases x with
  | ok a => cases h
  | error v => rfl

namespace Surface

/-- A surface after another: of the same kind, and no valid recording has become invalid. -/
inductive After : Surface → Surface → Prop where
  | recording {r s : Recording} (h : r.validate = none → s.validate = none) :
    After (.recording r) (.recording s)
  | trace (t u : Trace) : After (.trace t) (.trace u)
  | page (p q : Page) : After (.page p) (.page q)

variable {s t u : Surface}

theorem After.refl (s : Surface) : After s s := by
  cases s with
  | recording r => exact .recording id
  | trace t => exact .trace t t
  | page p => exact .page p p

/-- What comes after what comes after a surface comes after it. -/
theorem After.trans (h : After s t) (ht : After t u) : After s u := by
  cases h with
  | recording h =>
    cases ht with
    | recording ht => exact .recording (ht ∘ h)
  | trace t u =>
    cases ht
    exact .trace t _
  | page p q =>
    cases ht
    exact .page p _

/-- A call on a recording adds an entry with the name of a primitive, or nothing. -/
theorem after_draw (c : Call) (s : Surface) : After s (s.draw c).state := by
  -- traces and pages are not checked, so only a recording is looked at
  cases s with
  | trace t => exact .trace t _
  | page p => exact .page p _
  | recording r =>
    cases hfault : (Surface.draw c (.recording r)).fault with
    | none =>
      obtain ⟨e, s, he, hdraw, hs⟩ := Recording.draw_eq_done hfault
      rw [hdraw]
      refine .recording (Recording.validate_of_extends hs ?_)
      exact List.forall_mem_singleton.2 ⟨c.primitive, Recording.name_of_entry he⟩
    | some x =>
      have hsame : (r.draw c).state = r := Outcome.state_ofValue hfault
      show After (.recording r) (.recording (r.draw c).state)
      rw [hsame]
      exact .refl _

theorem after_drawAll (cs : List Call) (s : Surface) : After s (s.drawAll cs).state := by
  induction cs generalizing s with
  | nil => exact .refl s
  | cons c cs ih =>
    rw [drawAll]
    cases h : (s.draw c).fault with
    | some x =>
      rw [Outcome.andThen_of_some h]
      exact after_draw c s
    | none =>
      rw [Outcome.andThen_of_none h]
      exact (after_draw c s).trans (ih _)

/-- To finish a recording changes nothing in it. -/
theorem after_finish (s : Surface) : After s s.finish.1 := by
  cases s with
  | recording r => exact .refl _
  | trace t => exact .refl _
  | page p => exact .page p _

/-- A new recording is valid. -/
theorem validate_fresh (source : String) :
    ∃ r, Form.json.fresh source = .recording r ∧ r.validate = none := by
  refine ⟨_, rfl, Recording.validate_eq_none.2 (Recording.isDrawing_toJson.2 ?_)⟩
  refine ⟨⟨_, rfl⟩, fun _ => ⟨_, rfl⟩, ?_⟩
  rintro e ⟨⟩

/-- A recording that comes from a new surface is valid. -/
theorem validate_of_fresh {form : Form} {source : String} (h : (form.fresh source).After s)
    {r : Recording} (hr : s = .recording r) : r.validate = none := by
  subst hr
  cases form with
  | json =>
    obtain ⟨blank, hblank, hvalid⟩ := validate_fresh source
    rw [hblank] at h
    cases h with
    | recording h => exact h hvalid
  | pdf => cases h
  | trace => cases h

end Surface

end LabelPress
