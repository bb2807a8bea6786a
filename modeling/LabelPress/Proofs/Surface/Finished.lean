import LabelPress.Proofs.Surface.Drawn

/-!
# Finished documents

A page is finished once. The document that is begun first and finished ends with the two instructions
that write it, behind everything that was drawn, and finishing it again gives the same document without
a further instruction.

The same holds if another document has been begun since: its drawing is never written, and the page
gives out the document of the label before (`Page.finish_first`, `Page.finish_second`). This is because
beginning a document leaves the finished one in place (`Page.output_draw`).
-/

namespace LabelPress

/-- Whether an instruction stands inside a document: it draws or sets a font. -/
def Instruction.isInside : Instruction → Bool
  | .setFont .. => true
  | i => i.draws

/-- Whether a call begins a document. -/
def Call.begins : Call → Bool
  | .createDocument .. => true
  | _ => false

namespace Page

variable {p q r : Page} {c : Call}

/-! ## Documents that are carried on -/

/-- The page with more of the same document. -/
structure Continues (p q : Page) : Prop where
  width : q.width = p.width
  height : q.height = p.height
  creator : q.creator = p.creator
  output : q.output = p.output
  instructions : ∃ is, (∀ i ∈ is, i.isInside = true) ∧
    q.instructions.toList = p.instructions.toList ++ is

theorem Continues.refl (p : Page) : Continues p p :=
  ⟨rfl, rfl, rfl, rfl, [], by simp, by simp⟩

/-- What continues a page that continues another one continues that. -/
theorem Continues.trans (hq : Continues p q) (hr : Continues q r) : Continues p r := by
  obtain ⟨is, his, hqs⟩ := hq.instructions
  obtain ⟨js, hjs, hrs⟩ := hr.instructions
  exact ⟨hr.width.trans hq.width, hr.height.trans hq.height, hr.creator.trans hq.creator,
    hr.output.trans hq.output, is ++ js, List.forall_mem_append.2 ⟨his, hjs⟩, by
      rw [hrs, hqs, List.append_assoc]⟩

theorem continues_of_adds (h : Adds (·.isInside = true) p q) : Continues p q := by
  obtain ⟨is, his, rfl⟩ := h
  exact ⟨rfl, rfl, rfl, rfl, is, his, toList_tellAll is p⟩

theorem isInside_of_draws {i : Instruction} (h : i.draws = true) : i.isInside = true := by
  cases i with
  | setFont => rfl
  | _ => exact h

theorem continues_of_addsDrawing (h : AddsDrawing p q) : Continues p q :=
  continues_of_adds (h.mono fun _ => isInside_of_draws)

theorem continues_moveCursor (x y : Json) (p : Page) : Continues p (p.moveCursor x y).state := by
  have hmoved (a b : Float) : Continues p { p with x := a, y := b } :=
    ⟨rfl, rfl, rfl, rfl, [], by simp, by simp⟩
  unfold moveCursor
  cases x.toFloat with
  | error e => exact .refl p
  | ok a =>
    cases y.toFloat with
    | error e => exact .refl p
    | ok b => exact hmoved a b

theorem continues_setFontSize (points : Json) (p : Page) :
    Continues p (p.setFontSize points).state := by
  unfold setFontSize
  cases points.toFloat with
  | error e => exact .refl p
  | ok size =>
    have hsized : Continues p { p with fontSize := size } :=
      ⟨rfl, rfl, rfl, rfl, [], by simp, by simp⟩
    exact hsized.trans (continues_of_adds (.onDocument (.perform (by rfl) _)))

/-- A call that begins no document carries on the one there is, also if it is refused. -/
theorem continues_draw (hc : c.begins = false) (p : Page) : Continues p (p.draw c).state := by
  cases c with
  | createDocument => cases hc
  | moveCursor x y => exact continues_moveCursor x y p
  | setFontSize points => exact continues_setFontSize points p
  | drawText text => exact continues_of_addsDrawing (addsDrawing_drawText p text)
  | drawRect => exact continues_of_addsDrawing (addsDrawing_drawRect p ..)
  | drawBarcode content style => exact continues_of_addsDrawing (addsDrawing_drawBarcode p ..)

/-- So do such calls one after another. -/
theorem continues_drawAll {cs : List Call} (hcs : ∀ c ∈ cs, c.begins = false) (p : Page) :
    ∃ q, (Surface.drawAll cs (.page p)).state = .page q ∧ Continues p q := by
  induction cs generalizing p with
  | nil => exact ⟨p, rfl, .refl p⟩
  | cons c cs ih =>
    rw [List.forall_mem_cons] at hcs
    have hc := continues_draw hcs.1 p
    rw [Surface.drawAll]
    cases h : (Surface.draw c (.page p)).fault with
    | some x =>
      rw [Outcome.andThen_of_some h]
      exact ⟨_, rfl, hc⟩
    | none =>
      rw [Outcome.andThen_of_none h]
      obtain ⟨q, hq, hrest⟩ := ih hcs.2 (p.draw c).state
      exact ⟨q, hq, hc.trans hrest⟩

/-! ## The finished document -/

theorem output_of_adds {P : Instruction → Prop} (h : Adds P p q) : q.output = p.output := by
  obtain ⟨is, -, rfl⟩ := h
  rfl

/-- A part of an operation that keeps the finished document lets the next part keep it. -/
theorem output_andThen {o : Outcome Page} {f : Page → Outcome Page}
    {output : Option (Array Instruction)} (ho : o.state.output = output)
    (hf : ∀ q, q.output = output → (f q).state.output = output) :
    (o.andThen f).state.output = output := by
  cases h : o.fault with
  | some x => rwa [Outcome.andThen_of_some h]
  | none =>
    rw [Outcome.andThen_of_none h]
    exact hf _ ho

/-- The document that has been finished stays, although another one is begun. -/
theorem output_createDocument (width height : Json) (p : Page) :
    (p.createDocument width height).state.output = p.output := by
  have hany : ∀ is : List Instruction, ∀ i ∈ is, True := fun _ _ _ => trivial
  unfold createDocument
  cases (do return (← width.toFloat, ← height.toFloat) : Except ValueFault (Float × Float)) with
  | error e => rfl
  | ok size =>
    obtain ⟨w, v⟩ := size
    simp only [Outcome.withValue]
    refine output_andThen ?_ fun q hq => ?_
    · exact output_of_adds (p := { p with width := w, height := v })
        (.perform (P := fun _ => True) trivial _)
    · exact (output_of_adds (.performAll (hany _) _)).trans hq

/-- No call touches a document that has been finished, not even one that begins another. -/
theorem output_draw (c : Call) (p : Page) : (p.draw c).state.output = p.output := by
  cases hc : c.begins with
  | false => exact (continues_draw hc p).output
  | true =>
    cases c with
    | createDocument width height => exact output_createDocument width height p
    | _ => cases hc

theorem finish_of_output {document : Array Instruction} (h : p.output = some document) :
    p.finish = (p, .ok document) := by
  unfold finish
  rw [h]

/-- A document is finished by two instructions behind all others, and kept. -/
theorem finish_of_ok {document : Array Instruction} (hnone : p.output = none)
    (h : p.finish.2 = .ok document) :
    document.toList = p.instructions.toList ++
        [.showPage, .save (p.width * millimetre) (p.height * millimetre) p.creator] ∧
      p.finish.1.instructions = document ∧ p.finish.1.output = some document := by
  unfold finish at h ⊢
  rw [hnone] at h ⊢
  simp only at h ⊢
  cases hfault : (p.onDocument (performAll [.showPage,
      .save (p.width * millimetre) (p.height * millimetre) p.creator])).fault with
  | some x =>
    rw [hfault] at h
    cases h
  | none =>
    simp only [hfault, Except.ok.injEq] at h ⊢
    subst h
    refine ⟨?_, rfl, rfl⟩
    -- before a document is begun there is nothing to finish, which would have been a fault
    unfold onDocument at hfault ⊢
    split at hfault
    · next hopened =>
      rw [if_pos hopened, performAll_of_none hfault, toList_tellAll]
    · cases hfault

/-- What a page can be asked for. -/
inductive Request where
  | draw (c : Call)
  | finish

/-- The page after a request, whatever came of it. -/
def Request.carryOut : Request → Page → Page
  | .draw c, p => (p.draw c).state
  | .finish, p => p.finish.1

/-- The page after requests one after another. -/
def carryOutAll (requests : List Request) (p : Page) : Page :=
  requests.foldl (fun q request => request.carryOut q) p

/-- A finished document outlives all later requests. -/
theorem output_carryOutAll {document : Array Instruction} (h : p.output = some document)
    (requests : List Request) : (p.carryOutAll requests).output = some document := by
  induction requests generalizing p with
  | nil => exact h
  | cons request requests ih =>
    refine ih ?_
    cases request with
    | draw c => exact (output_draw c p).trans h
    | finish =>
      show p.finish.1.output = _
      rw [finish_of_output h, h]

/-- The first document that a page is asked for is written as it should be: behind the canvas that it
was begun with stands everything that was drawn, and then the two instructions that end it. From then
on the page gives out this document whenever it is finished, and gives no instruction for it, whatever
else has been asked of it in between: to draw, to begin another document, or to finish that. -/
theorem finish_first {width height : Json} {cs : List Call} {notes : List Note}
    {document : Array Instruction} (hnew : p.output = none ∧ p.instructions = #[])
    (hcs : ∀ c ∈ cs, c.begins = false)
    (hdrawn : Surface.drawAll (.createDocument width height :: cs) (.page p) =
      ⟨.page q, notes, none⟩)
    (hfinish : q.finish.2 = .ok document) :
    (∃ w v content, width.toFloat = .ok w ∧ height.toFloat = .ok v ∧
      (∀ i ∈ content, i.isInside = true) ∧
      q.instructions.toList =
        .canvas (w * millimetre) (v * millimetre) :: .setCreator p.creator :: content ∧
      document.toList = q.instructions.toList ++
        [.showPage, .save (w * millimetre) (v * millimetre) p.creator] ∧
      q.finish.1.instructions = document) ∧
    ∀ requests, (q.finish.1.carryOutAll requests).finish =
      (q.finish.1.carryOutAll requests, .ok document) := by
  obtain ⟨hnone, hempty⟩ := hnew
  rw [Surface.drawAll] at hdrawn
  cases hbegun : (Surface.draw (.createDocument width height) (.page p)).fault with
  | some x =>
    -- then nothing of it would have been drawn
    have hfault := congrArg Outcome.fault hdrawn
    rw [Outcome.andThen_of_some hbegun] at hfault
    cases hbegun.symm.trans hfault
  | none =>
    obtain ⟨w, v, hw, hv, hpage⟩ := createDocument_of_none hbegun
    obtain ⟨r, hr, hcontinued⟩ := continues_drawAll hcs (p.createDocument width height).state
    obtain rfl : r = q := by
      have hstate := congrArg Outcome.state hdrawn
      rw [Outcome.andThen_of_none hbegun] at hstate
      exact Surface.page.inj (hr.symm.trans hstate)
    rw [hpage] at hcontinued
    obtain ⟨is, his, hinstructions⟩ := hcontinued.instructions
    obtain ⟨hdocument, hgiven, hkept⟩ := finish_of_ok (hcontinued.output.trans hnone) hfinish
    refine ⟨⟨w, v, .setFont p.fontName p.fontSize :: is, hw, hv, ?_, ?_, ?_, hgiven⟩, fun requests => ?_⟩
    · exact List.forall_mem_cons.2 ⟨rfl, his⟩
    · rw [hinstructions, toList_tellAll, hempty]
      rfl
    · rw [hdocument, hcontinued.width, hcontinued.height, hcontinued.creator]
      rfl
    · exact finish_of_output (output_carryOutAll hkept requests)

/-- A text on a new page is written as it should be, and given out again whenever it is asked for. -/
theorem finish_first_text :
    ∃ q notes document content,
      Surface.drawAll [.createDocument (.int 100) (.int 50),
        .moveCursor (.float 5.0) (.float 5.0), .drawText (.text "A1")] (.page {}) =
          ⟨.page q, notes, none⟩ ∧
      q.finish.2 = .ok document ∧ (∀ i ∈ content, i.isInside = true) ∧ content.length = 3 ∧
      document.toList = .canvas (100.0 * millimetre) (50.0 * millimetre) ::
        .setCreator (.string "zpl-interpreter") :: (content ++
          [.showPage, .save (100.0 * millimetre) (50.0 * millimetre) (.string "zpl-interpreter")]) ∧
      ∀ requests, (q.finish.1.carryOutAll requests).finish =
        (q.finish.1.carryOutAll requests, .ok document) := by
  -- what is drawn has a name, so that it is computed only for what is asked of it
  obtain ⟨drawn, hdrawn⟩ : ∃ o, Surface.drawAll [.createDocument (.int 100) (.int 50),
    .moveCursor (.float 5.0) (.float 5.0), .drawText (.text "A1")] (.page {}) = o := ⟨_, rfl⟩
  have hfault : drawn.fault = none := hdrawn ▸ (by decide)
  have hsize : (match drawn.state with
      | .page q => q.finish.2.toOption.map (·.size)
      | _ => none) = some 7 := hdrawn ▸ (by decide)
  obtain ⟨state, notes, fault⟩ := drawn
  obtain rfl : fault = none := hfault
  cases state with
  | recording | trace => cases hsize
  | page q =>
    obtain ⟨document, hfinish, hseven⟩ : ∃ d, q.finish.2 = .ok d ∧ d.size = 7 := by
      cases hfinish : q.finish.2 with
      | error x => simp [hfinish, Except.toOption] at hsize
      | ok document => exact ⟨document, rfl, by simpa [hfinish, Except.toOption] using hsize⟩
    obtain ⟨⟨w, v, content, hw, hv, hcontent, hbehind, hdocument, -⟩, hkept⟩ :=
      finish_first ⟨rfl, rfl⟩ (by decide) hdrawn hfinish
    obtain rfl : (100.0 : Float) = w := Except.ok.inj hw
    obtain rfl : (50.0 : Float) = v := Except.ok.inj hv
    rw [hbehind] at hdocument
    have hlength : document.size = content.length + 4 := by
      rw [← Array.length_toList, hdocument]
      simp
    exact ⟨q, notes, document, content, hdrawn, hfinish, hcontent, by omega, hdocument, hkept⟩

/-- The second document of a page is drawn, but when it is finished the page gives out the first one
again, and no instruction ends the second. -/
theorem finish_second :
    let first := (createDocument (.int 100) (.int 50) {}).state.finish
    let second := first.1.createDocument (.int 60) (.int 40)
    first.2.isOk = true ∧ second.fault = none ∧ second.state.finish = (second.state, first.2) := by
  have hok : (createDocument (.int 100) (.int 50) {}).state.finish.2.isOk = true := by decide
  have hnone : (createDocument (.int 100) (.int 50) {}).state.output = none :=
    output_createDocument _ _ {}
  refine ⟨hok, by decide, ?_⟩
  generalize (createDocument (.int 100) (.int 50) {}).state = p at hok hnone ⊢
  cases hfinish : p.finish.2 with
  | error x =>
    rw [hfinish] at hok
    cases hok
  | ok document =>
    obtain ⟨-, -, hkept⟩ := finish_of_ok hnone hfinish
    exact finish_of_output ((output_createDocument ..).trans hkept)

end Page

end LabelPress
