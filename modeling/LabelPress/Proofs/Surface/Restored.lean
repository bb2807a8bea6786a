import LabelPress.Proofs.Surface.Finished
import Mathlib.Combinatorics.Enumerative.DyckWord

/-!
# Saved states are restored

To turn a barcode, a page saves the state of its canvas, and it restores it afterwards. The canvas
may refuse anything in between, for any reason: whatever is asked of a page, it saves and restores
in pairs (`Page.IsBalanced`), so that what is drawn later is neither turned nor moved.

* `Page.restores_carryOut`: every request adds balanced instructions, whatever comes of it;
* `Page.Reports`: what is refused while a barcode is made or drawn is what the operation is refused
  for, and nothing of the page but its instructions is changed;
* `Page.balanced_request`: both, for any request after any others.

The one thing that is needed is that the canvas always saves and restores (`Canvas.KeepsStates`), as
the standard one does (`Canvas.keepsStates_standard`).
-/

namespace LabelPress

namespace Instruction

/-- Saving a state opens a bracket, and restoring it closes one. -/
def bracket? : Instruction → Option DyckStep
  | .saveState => some .U
  | .restoreState => some .D
  | _ => none

/-- Whether an instruction makes, turns or draws a barcode. -/
def handlesBarcode : Instruction → Bool
  | .makeBarcode .. | .translate .. | .rotate _ | .drawOn .. => true
  | _ => false

variable {i : Instruction}

theorem bracket?_of_marks (h : i.marks = true) : i.bracket? = none := by
  cases i with
  | saveState | restoreState => cases h
  | _ => rfl

end Instruction

/-- The canvas carries out every instruction to save or restore its state. -/
def Canvas.KeepsStates (canvas : Canvas) : Prop :=
  ∀ n, canvas.refuses n .saveState = none ∧ canvas.refuses n .restoreState = none

/-- The canvas that refuses nothing keeps states. -/
theorem Canvas.keepsStates_standard : Canvas.standard.KeepsStates := fun _ => ⟨rfl, rfl⟩

namespace Page

/-! ## Balanced instructions -/

/-- States are restored as often as they are saved, and at no point more often. -/
def IsBalanced (is : List Instruction) : Prop :=
  ∃ w : DyckWord, w.toList = is.filterMap Instruction.bracket?

variable {p q r : Page} {is js : List Instruction} {o : Outcome Page} {f : Page → Outcome Page}

theorem isBalanced_of_plain (h : ∀ i ∈ is, i.bracket? = none) : IsBalanced is :=
  ⟨0, (List.filterMap_eq_nil_iff.2 h).symm⟩

/-- Balanced instructions after balanced ones are balanced. -/
theorem IsBalanced.append (his : IsBalanced is) (hjs : IsBalanced js) : IsBalanced (is ++ js) := by
  obtain ⟨v, hv⟩ := his
  obtain ⟨w, hw⟩ := hjs
  refine ⟨v + w, ?_⟩
  rw [List.filterMap_append, ← hv, ← hw]
  rfl

/-- A state saved before balanced instructions and restored behind them keeps the balance. -/
theorem IsBalanced.enclosed (his : IsBalanced is) :
    IsBalanced (.saveState :: is ++ [.restoreState]) := by
  obtain ⟨w, hw⟩ := his
  refine ⟨w.nest, ?_⟩
  have hinside : (Instruction.saveState :: is).filterMap Instruction.bracket? = .U :: w.toList := by
    rw [hw]
    rfl
  rw [List.filterMap_append, hinside]
  rfl

/-! ## Pages that are carried on -/

/-- The page with more instructions, which are balanced, on the same canvas. -/
structure Restores (p q : Page) : Prop where
  canvas : q.canvas = p.canvas
  instructions : ∃ is, IsBalanced is ∧ q.instructions.toList = p.instructions.toList ++ is

theorem restores_of_same (hcanvas : q.canvas = p.canvas)
    (hinstructions : q.instructions = p.instructions) : Restores p q :=
  ⟨hcanvas, [], isBalanced_of_plain (by simp), by rw [hinstructions, List.append_nil]⟩

theorem Restores.refl (p : Page) : Restores p p := restores_of_same rfl rfl

/-- Pages that are carried on twice are carried on. -/
theorem Restores.trans (hq : Restores p q) (hr : Restores q r) : Restores p r := by
  obtain ⟨is, his, hqs⟩ := hq.instructions
  obtain ⟨js, hjs, hrs⟩ := hr.instructions
  exact ⟨hr.canvas.trans hq.canvas, is ++ js, his.append hjs, by
    rw [hrs, hqs, List.append_assoc]⟩

theorem restores_tellAll (his : IsBalanced is) (p : Page) : Restores p (p.tellAll is) :=
  ⟨rfl, is, his, toList_tellAll is p⟩

theorem restores_of_adds (h : Adds (·.bracket? = none) p q) : Restores p q := by
  obtain ⟨is, his, rfl⟩ := h
  exact restores_tellAll (isBalanced_of_plain his) p

theorem restores_perform {i : Instruction} (hi : i.bracket? = none) (p : Page) :
    Restores p (p.perform i).state :=
  restores_of_adds (.perform hi p)

theorem restores_performAll (his : ∀ i ∈ is, i.bracket? = none) (p : Page) :
    Restores p (p.performAll is).state :=
  restores_of_adds (.performAll his p)

/-- An operation in two parts is balanced if its parts are. The second part may be looked at on the
same canvas only. -/
theorem Restores.andThen (ho : Restores p o.state) (hf : ∀ q, q.canvas = p.canvas →
    Restores q (f q).state) : Restores p (o.andThen f).state := by
  cases h : o.fault with
  | some x => rwa [Outcome.andThen_of_some h]
  | none =>
    rw [Outcome.andThen_of_none h]
    exact ho.trans (hf _ ho.canvas)

/-- Without the value nothing is told. -/
theorem Restores.withValue {A : Type} {x : Except ValueFault A} {f : A → Outcome Page}
    (hf : ∀ a, Restores p (f a).state) : Restores p (Outcome.withValue p x f).state := by
  cases x with
  | ok a => exact hf a
  | error e => exact .refl p

theorem Restores.ofValue {x : Except ValueFault Page} (hx : ∀ q, x = .ok q → Restores p q) :
    Restores p (Outcome.ofValue p x).state := by
  cases x with
  | ok q => exact hx q rfl
  | error e => exact .refl p

/-- Before a document is begun nothing is told. -/
theorem Restores.onDocument (hf : Restores p (f p).state) : Restores p (p.onDocument f).state := by
  unfold Page.onDocument
  split
  · exact hf
  · exact .refl p

/-- An instruction that is carried out leaves nothing else to be said. -/
theorem perform_of_none {i : Instruction} (h : p.canvas.refuses p.instructions.size i = none) :
    p.perform i = .done (p.tellAll [i]) := by
  rw [← tell_eq, perform, h]

/-! ## Every request -/

/-- What has been saved is restored, whatever came of what was done in between. -/
theorem restores_afterwards (h : Adds (·.bracket? = none) (p.tellAll [.saveState]) o.state) :
    Restores p (o.afterwards (·.perform .restoreState)).state := by
  obtain ⟨is, his, hstate⟩ := h
  have hlast : (o.afterwards (·.perform .restoreState)).state =
      o.state.tellAll [.restoreState] := state_perform _ _
  rw [hlast, hstate, tellAll_tellAll, tellAll_tellAll]
  exact restores_tellAll (isBalanced_of_plain his).enclosed p

/-- A barcode is turned between saving and restoring, and the state is restored even if the canvas
refuses to draw it. -/
theorem restores_place (hp : p.canvas.KeepsStates) (o : Orientation)
    (width height barHeight module : Float) :
    Restores p (p.place o width height barHeight module).state := by
  unfold place
  rw [perform_of_none (hp _).1, Outcome.andThen_done]
  exact restores_afterwards (.performAll (by simp [Instruction.bracket?]) _)

/-- A barcode with a complete formatting is balanced: only its turn needs a state. -/
theorem restores_drawFormatted (hp : p.canvas.KeepsStates) (content : Argument) (f : Formatting) :
    Restores p (p.drawFormatted content f).state := by
  refine .withValue fun (height, module) => .andThen (restores_perform rfl p) ?_
  intro q hq
  refine .trans (restores_of_adds (.tell (by rfl) q)) (.withValue fun o => .onDocument ?_)
  refine restores_place ?_ o _ _ _ _
  show q.canvas.KeepsStates
  rw [hq]
  exact hp

/-- So is a barcode with any formatting. -/
theorem restores_drawBarcode (hp : p.canvas.KeepsStates) (content style : Argument) :
    Restores p (p.drawBarcode content style).state := by
  unfold drawBarcode
  split
  · exact .refl p
  · split
    · exact restores_drawFormatted hp content _
    · exact .refl p

/-- To begin a document is balanced: its instructions set up the page and save no state. -/
theorem restores_createDocument (width height : Json) (p : Page) :
    Restores p (p.createDocument width height).state := by
  refine .withValue fun (w, h) => .andThen ?_ fun q _ => ?_
  · have hsized : Restores p { p with width := w, height := h } := restores_of_same rfl rfl
    exact hsized.trans (restores_perform rfl _)
  · have hopened : Restores q { q with opened := true } := restores_of_same rfl rfl
    exact hopened.trans (restores_performAll (by simp [Instruction.bracket?]) _)

/-- Every call adds balanced instructions, whatever comes of it. -/
theorem restores_draw (hp : p.canvas.KeepsStates) (c : Call) : Restores p (p.draw c).state := by
  have hmarks {q : Page} (h : Adds (·.marks = true) p q) : Restores p q :=
    restores_of_adds (h.mono fun _ => Instruction.bracket?_of_marks)
  -- only a barcode needs a state of its own; the other calls neither save nor restore
  cases c with
  | createDocument width height => exact restores_createDocument width height p
  | moveCursor x y =>
    refine .ofValue fun q hq => ?_
    obtain ⟨_, -, hq⟩ := Except.bind_eq_ok.1 hq
    obtain ⟨_, -, hq⟩ := Except.bind_eq_ok.1 hq
    cases hq
    exact restores_of_same rfl rfl
  | setFontSize points =>
    refine .withValue fun size => ?_
    have hsized : Restores p { p with fontSize := size } := restores_of_same rfl rfl
    exact hsized.trans (.onDocument (restores_perform rfl _))
  | drawText text => exact hmarks (addsMarks_drawText p text)
  | drawRect => exact hmarks (addsMarks_drawRect p ..)
  | drawBarcode content style => exact restores_drawBarcode hp content style

/-- To end a document is balanced, also if it was ended before. -/
theorem restores_finish (p : Page) : Restores p p.finish.1 := by
  have hended : Restores p (p.onDocument (performAll
      [.showPage, .save (p.width * millimetre) (p.height * millimetre) p.creator])).state :=
    .onDocument (restores_performAll (by simp [Instruction.bracket?]) p)
  unfold finish
  split
  · exact .refl p
  · simp only
    split
    · exact hended
    · exact hended.trans (restores_of_same rfl rfl)

/-- Every request is balanced by itself. -/
theorem restores_carryOut (hp : p.canvas.KeepsStates) (request : Request) :
    Restores p (request.carryOut p) := by
  cases request with
  | draw c => exact restores_draw hp c
  | finish => exact restores_finish p

/-- So every row of requests is: each begins on the canvas on which the one before it ended. -/
theorem restores_carryOutAll (hp : p.canvas.KeepsStates) (requests : List Request) :
    Restores p (p.carryOutAll requests) := by
  induction requests generalizing p with
  | nil => exact .refl p
  | cons request requests ih =>
    have hfirst := restores_carryOut hp request
    exact hfirst.trans (ih (hfirst.canvas ▸ hp))

/-! ## Refusals -/

/-- Since the page was as `p`, its canvas has refused an instruction that handles a barcode. -/
def RefusedSince (p q : Page) (x : CanvasFault) : Prop :=
  ∃ n i, p.instructions.size ≤ n ∧ q.instructions[n]? = some i ∧ i.handlesBarcode = true ∧
    p.canvas.refuses n i = some x

/-- The page has more instructions, and if the canvas refused one of them that has to do with a
barcode, then this is why the operation was refused. -/
structure Reports (p : Page) (o : Outcome Page) : Prop where
  adds : Adds (fun _ => True) p o.state
  fault : ∀ x, RefusedSince p o.state x → o.fault = some (.canvas x)

variable {i : Instruction} {x : CanvasFault}

/-- The instruction at a place was there, or is one of those told since. -/
theorem getElem?_tellAll (is : List Instruction) (p : Page) (n : Nat) :
    (p.tellAll is).instructions[n]? =
      if n < p.instructions.size then p.instructions[n]? else is[n - p.instructions.size]? := by
  rw [← Array.getElem?_toList, toList_tellAll, List.getElem?_append, Array.length_toList,
    Array.getElem?_toList]

theorem not_refusedSince_self : ¬ RefusedSince p p x := by
  rintro ⟨n, i, hn, hi, -⟩
  rw [Array.getElem?_eq_none hn] at hi
  cases hi

/-- A refusal on the way to a page was before another page on this way, or after it. -/
theorem RefusedSince.split (h : RefusedSince p r x) (hq : Adds (fun _ => True) p q)
    (hr : Adds (fun _ => True) q r) : RefusedSince p q x ∨ RefusedSince q r x := by
  obtain ⟨is, -, rfl⟩ := hq
  obtain ⟨js, -, rfl⟩ := hr
  obtain ⟨n, i, hn, hi, hhandles, hx⟩ := h
  by_cases hlt : n < (p.tellAll is).instructions.size
  · rw [getElem?_tellAll, if_pos hlt] at hi
    exact .inl ⟨n, i, hn, hi, hhandles, hx⟩
  · exact .inr ⟨n, i, Nat.not_lt.1 hlt, hi, hhandles, hx⟩

/-- A single instruction that is refused is the one that was told. -/
theorem refusedSince_tell (h : RefusedSince p (p.tellAll [i]) x) :
    i.handlesBarcode = true ∧ p.canvas.refuses p.instructions.size i = some x := by
  obtain ⟨n, j, hn, hj, hhandles, hx⟩ := h
  rw [getElem?_tellAll, if_neg (Nat.not_lt.2 hn)] at hj
  obtain ⟨hlt, rfl⟩ := List.getElem?_eq_some_iff.1 hj
  obtain rfl : n = p.instructions.size := by
    rw [List.length_singleton] at hlt
    omega
  simp only [Nat.sub_self, List.getElem_cons_zero] at hhandles hx
  exact ⟨hhandles, hx⟩

namespace Reports

theorem of_same (h : o.state = p) : Reports p o := by
  subst h
  exact ⟨.refl _, fun _ hx => absurd hx not_refusedSince_self⟩

/-- A refused instruction is reported as the refusal that it was. -/
theorem perform (i : Instruction) (p : Page) : Reports p (p.perform i) := by
  refine ⟨.perform trivial p, fun x hx => ?_⟩
  rw [state_perform] at hx
  rw [Page.perform, (refusedSince_tell hx).2]
  rfl

/-- In an operation of two parts the second one begins only if nothing was refused in the first, and
what is refused in either is reported. -/
theorem andThen (ho : Reports p o) (hf : ∀ q, q.canvas = p.canvas → Reports q (f q)) :
    Reports p (o.andThen f) := by
  cases h : o.fault with
  | some y => rwa [Outcome.andThen_of_some h]
  | none =>
    obtain ⟨hadds, hfault⟩ := hf o.state (by
      obtain ⟨is, -, hstate⟩ := ho.adds
      rw [hstate]
      rfl)
    rw [Outcome.andThen_of_none h]
    refine ⟨ho.adds.trans hadds, fun x hx => ?_⟩
    rcases hx.split ho.adds hadds with hbefore | hafter
    · -- a refusal would have ended the first operation
      rw [ho.fault x hbefore] at h
      cases h
    · exact hfault x hafter

theorem performAll (is : List Instruction) (p : Page) : Reports p (p.performAll is) := by
  induction is generalizing p with
  | nil => exact of_same rfl
  | cons i is ih => exact (perform i p).andThen fun q _ => ih q

/-- Without the value nothing is told, so nothing can be refused. -/
theorem withValue {A : Type} {v : Except ValueFault A} {f : A → Outcome Page}
    (hf : ∀ a, Reports p (f a)) : Reports p (Outcome.withValue p v f) := by
  cases v with
  | ok a => exact hf a
  | error e => exact of_same rfl

/-- Before a document is begun nothing is told. -/
theorem onDocument (hf : Reports p (f p)) : Reports p (p.onDocument f) := by
  unfold Page.onDocument
  split
  · exact hf
  · exact of_same rfl

/-- What is only noted down is not refused. -/
theorem tell (hi : i.handlesBarcode = false) (ho : Reports (p.tell i) o) : Reports p o := by
  have hadds : Adds (fun _ => True) p (p.tell i) := .tell trivial p
  refine ⟨hadds.trans ho.adds, fun x hx => ?_⟩
  rcases hx.split hadds ho.adds with htold | hafter
  · rw [tell_eq] at htold
    rw [(refusedSince_tell htold).1] at hi
    cases hi
  · exact ho.fault x hafter

/-- Restoring does not hide why an operation was refused. -/
theorem afterwards (hp : p.canvas.KeepsStates) (ho : Reports p o) :
    Reports p (o.afterwards (·.perform .restoreState)) := by
  have hcanvas : o.state.canvas = p.canvas := by
    obtain ⟨is, -, hstate⟩ := ho.adds
    rw [hstate]
    rfl
  have hrestored := perform_of_none (p := o.state) (i := .restoreState) (hcanvas ▸ (hp _).2)
  have hadds : Adds (fun _ => True) o.state (o.state.perform .restoreState).state :=
    .perform trivial o.state
  refine ⟨ho.adds.trans hadds, fun x hx => ?_⟩
  -- a refusal lies before the state is restored, for that is not refused
  rcases hx.split ho.adds hadds with hbefore | hafter
  · show (o.state.perform .restoreState).fault.or o.fault = _
    rw [hrestored]
    exact ho.fault x hbefore
  · have htold : RefusedSince o.state (o.state.tellAll [.restoreState]) x :=
      state_perform .restoreState o.state ▸ hafter
    cases (refusedSince_tell htold).1

end Reports

/-- To restore the state behind a barcode is never refused, so a refusal inside is not lost. -/
theorem reports_place (hp : p.canvas.KeepsStates) (o : Orientation)
    (width height barHeight module : Float) :
    Reports p (p.place o width height barHeight module) := by
  unfold place
  refine (Reports.perform .saveState p).andThen fun q hq => ?_
  exact (Reports.performAll _ q).afterwards (hq ▸ hp)

/-- A refusal on the way to a barcode is reported. -/
theorem reports_drawFormatted (hp : p.canvas.KeepsStates) (content : Argument) (f : Formatting) :
    Reports p (p.drawFormatted content f) := by
  refine .withValue fun (height, module) => (Reports.perform _ p).andThen fun q hq => ?_
  refine .tell (by rfl) (.withValue fun o => .onDocument (reports_place ?_ o _ _ _ _))
  show q.canvas.KeepsStates
  rw [hq]
  exact hp

/-- A barcode is drawn by adding instructions, and nothing else of the page is changed. If the
canvas refuses one that has to do with it, then the call is refused: because of the content if that
is found unsuitable, and otherwise for the reason that the canvas gives. -/
theorem reports_drawBarcode (hp : p.canvas.KeepsStates) (content style : Argument) :
    Adds (fun _ => True) p (p.drawBarcode content style).state ∧
      ∀ x, RefusedSince p (p.drawBarcode content style).state x →
        (p.drawBarcode content style).fault = some (contentFault content.toJson (.canvas x)) := by
  unfold drawBarcode
  split
  · exact ⟨.refl p, fun x hx => absurd hx not_refusedSince_self⟩
  · split
    · next f =>
      obtain ⟨hadds, hfault⟩ := reports_drawFormatted hp content f
      refine ⟨hadds, fun x hx => ?_⟩
      exact congrArg (Option.map (contentFault content.toJson)) (hfault x hx)
    · exact ⟨.refl p, fun x hx => absurd hx not_refusedSince_self⟩

/-- Only what is unsuitable is blamed on the content. -/
theorem contentFault_canvas (content : Json) (x : CanvasFault) :
    contentFault content (.canvas x) =
      if x = .unsuitable then .argument ⟨"BC", "content", .outside content .encodable⟩
      else .canvas x := by
  cases x <;> rfl

/-- Whatever is asked of a page, after any other requests and whatever came of them, the states of
its canvas that are saved meanwhile are restored before the request ends, and no others are. This
needs no more of the canvas than that it saves and restores: it may refuse everything else for any
reason. If it refuses to make, turn or draw a barcode, then the call is refused, because of the
content if that is unsuitable, and the cursor, the font size and the size of the page stay as they
were. -/
theorem balanced_request (hp : p.canvas.KeepsStates) (before : List Request) (request : Request) :
    let q := p.carryOutAll before
    let r := request.carryOut q
    (∃ is, IsBalanced is ∧ r.instructions.toList = q.instructions.toList ++ is) ∧
      ∀ content style, request = .draw (.drawBarcode content style) →
        (r.x, r.y, r.fontSize, r.width, r.height) = (q.x, q.y, q.fontSize, q.width, q.height) ∧
          ∀ x, RefusedSince q r x → (q.drawBarcode content style).fault =
            some (if x = .unsuitable then
              .argument ⟨"BC", "content", .outside content.toJson .encodable⟩ else .canvas x) := by
  intro q r
  have hq : q.canvas.KeepsStates := (restores_carryOutAll hp before).canvas ▸ hp
  refine ⟨(restores_carryOut hq request).instructions, ?_⟩
  rintro content style rfl
  -- a barcode adds instructions to the page and changes nothing else of it
  obtain ⟨⟨is, -, hdrawn⟩, hfault⟩ := reports_drawBarcode hq content style
  have hr : r = q.tellAll is := hdrawn
  refine ⟨by rw [hr]; rfl, fun x hx => ?_⟩
  rw [hfault x hx, contentFault_canvas]

/-- A canvas that loses its way when it is turned for the first time, and cannot draw the second
barcode after it was turned: the state is restored both times. -/
theorem balanced_request_refused :
    let canvas : Canvas := { Canvas.standard with
      refuses := fun n i =>
        match i with
        | .rotate _ => if n < 10 then some (.other "lost") else none
        | .drawOn .. => some .unsuitable
        | _ => none }
    let barcode : Call := .drawBarcode (.text "A1") (.formatting {})
    ∃ q, q = carryOutAll [.draw (.createDocument (.int 100) (.int 50)), .draw barcode] { canvas } ∧
      canvas.KeepsStates ∧ q.instructions.size = 9 ∧
      RefusedSince q (q.draw barcode).state .unsuitable ∧
      (∃ is, IsBalanced is ∧
        (q.draw barcode).state.instructions.toList = q.instructions.toList ++ is) ∧
      (q.draw barcode).fault =
        some (.argument ⟨"BC", "content", .outside (.string "A1") .encodable⟩) := by
  intro canvas barcode
  have hcanvas : canvas.KeepsStates := fun _ => ⟨rfl, rfl⟩
  have hrequest := balanced_request (p := { canvas }) hcanvas
    [.draw (.createDocument (.int 100) (.int 50)), .draw barcode] (.draw barcode)
  have hsize : (carryOutAll [.draw (.createDocument (.int 100) (.int 50)), .draw barcode]
      { canvas }).instructions.size = 9 := by decide
  have hlast : ((carryOutAll [.draw (.createDocument (.int 100) (.int 50)), .draw barcode]
      { canvas }).draw barcode |>.state.instructions[14]?.any fun i =>
        i.handlesBarcode && canvas.refuses 14 i == some .unsuitable) = true := by decide
  have hsame : (carryOutAll [.draw (.createDocument (.int 100) (.int 50)), .draw barcode]
      { canvas }).canvas = canvas := by rfl
  -- of the page in between only the four facts above are needed
  generalize carryOutAll [.draw (.createDocument (.int 100) (.int 50)), .draw barcode]
    { canvas } = q at hrequest hsize hlast hsame ⊢
  obtain ⟨hbalanced, hbarcode⟩ := hrequest
  have hrefused : RefusedSince q (q.draw barcode).state .unsuitable := by
    cases hi : (q.draw barcode).state.instructions[14]? with
    | none =>
      rw [hi] at hlast
      cases hlast
    | some i =>
      rw [hi, Option.any_some, Bool.and_eq_true, beq_iff_eq, ← hsame] at hlast
      exact ⟨14, i, hsize ▸ by decide, hi, hlast⟩
  have hfault := (hbarcode (.text "A1") (.formatting {}) rfl).2 .unsuitable hrefused
  rw [if_pos rfl] at hfault
  exact ⟨q, rfl, hcanvas, hsize, hrefused, hbalanced, hfault⟩

end Page

end LabelPress
