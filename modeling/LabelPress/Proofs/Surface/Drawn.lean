import LabelPress.Proofs.Press.Take

/-!
# What drawing adds to a page

A page is carried on by giving instructions, and a refused call may have given some before it was
refused. Drawing a text, a box or a barcode changes nothing else (`Page.Adds`), whether or not the
canvas carries it out, and gives only instructions that draw: none of them begins or ends a document
or sets a font.
-/

namespace LabelPress

/-- Whether an instruction draws. The others begin and end documents and set fonts. -/
def Instruction.draws : Instruction → Bool
  | .canvas .. | .setCreator _ | .setFont .. | .showPage | .save .. => false
  | _ => true

/-- Whether an instruction marks the page with a text or a rectangle. -/
def Instruction.marks : Instruction → Bool
  | .fillBlack | .drawString .. | .strokeColour _ | .setLineWidth _ | .rectangle .. => true
  | _ => false

theorem Instruction.draws_of_marks {i : Instruction} (h : i.marks = true) : i.draws = true := by
  cases i with
  | fillBlack | drawString | strokeColour | setLineWidth | rectangle => rfl
  | _ => cases h

namespace Page

/-- The page with more instructions, and otherwise as it was. -/
def tellAll (is : List Instruction) (p : Page) : Page :=
  { p with instructions := p.instructions ++ is }

/-- Instructions are told behind those that were told before. -/
theorem toList_tellAll (is : List Instruction) (p : Page) :
    (p.tellAll is).instructions.toList = p.instructions.toList ++ is :=
  Array.toList_appendList

theorem tellAll_nil (p : Page) : p.tellAll [] = p := by
  have hnil : p.instructions ++ ([] : List Instruction) = p.instructions := Array.ext' (by simp)
  rw [tellAll, hnil]

theorem tellAll_tellAll (is js : List Instruction) (p : Page) :
    (p.tellAll is).tellAll js = p.tellAll (is ++ js) := by
  have hall : p.instructions ++ is ++ js = p.instructions ++ (is ++ js) := Array.ext' (by simp)
  rw [tellAll, tellAll, tellAll, ← hall]

theorem tell_eq (i : Instruction) (p : Page) : p.tell i = p.tellAll [i] := by
  have hpush : p.instructions.push i = p.instructions ++ [i] := Array.ext' (by simp)
  rw [tell, tellAll, hpush]

/-! ## Instructions that are carried out -/

variable {p : Page} {i : Instruction} {is : List Instruction}

/-- An instruction has been given even if the canvas does not carry it out. -/
theorem state_perform (i : Instruction) (p : Page) : (p.perform i).state = p.tellAll [i] := by
  unfold perform
  split
  · exact tell_eq i p
  · exact tell_eq i p

/-- Instructions are given in order, up to the first that is not carried out. -/
theorem state_andThen_perform {i : Instruction} {f : Page → Outcome Page}
    (h : ((p.perform i).andThen f).fault = none) :
    (f (p.tellAll [i])).fault = none ∧
      ((p.perform i).andThen f).state = (f (p.tellAll [i])).state := by
  obtain ⟨-, hrest, hstate⟩ := Outcome.of_andThen_none h
  rw [state_perform] at hrest hstate
  exact ⟨hrest, hstate⟩

/-- If no instruction is refused, performing them is telling them. -/
theorem performAll_of_none (h : (p.performAll is).fault = none) :
    (p.performAll is).state = p.tellAll is := by
  induction is generalizing p with
  | nil => exact (tellAll_nil p).symm
  | cons i is ih =>
    rw [performAll] at h ⊢
    obtain ⟨hrest, hstate⟩ := state_andThen_perform h
    rw [hstate, ih hrest, tellAll_tellAll, List.singleton_append]

/-- A document that is begun has its size, and begins with these three instructions. -/
theorem createDocument_of_none {width height : Json}
    (h : (p.createDocument width height).fault = none) :
    ∃ w v, width.toFloat = .ok w ∧ height.toFloat = .ok v ∧
      (p.createDocument width height).state =
        { p with width := w, height := v, opened := true }.tellAll
          [.canvas (w * millimetre) (v * millimetre), .setCreator p.creator,
            .setFont p.fontName p.fontSize] := by
  unfold createDocument at h ⊢
  obtain ⟨⟨w, v⟩, hsize, hbegun⟩ := Outcome.of_withValue_none h
  obtain ⟨hw, hv⟩ := Except.pair_eq_ok hsize
  rw [hbegun] at h ⊢
  obtain ⟨-, hrest, hstate⟩ := Outcome.of_andThen_none h
  rw [state_perform] at hrest hstate
  refine ⟨w, v, hw, hv, ?_⟩
  -- the canvas and the rest of the setup are one row of instructions
  rw [hstate, performAll_of_none hrest]
  exact tellAll_tellAll _ _ { p with width := w, height := v, opened := true }

/-! ## Pages that are carried on -/

/-- The page with more instructions, all of which meet a condition, and otherwise as it was. -/
def Adds (P : Instruction → Prop) (p q : Page) : Prop :=
  ∃ is, (∀ i ∈ is, P i) ∧ q = p.tellAll is

namespace Adds

variable {P Q : Instruction → Prop} {q r : Page} {o : Outcome Page} {f : Page → Outcome Page}

theorem refl (p : Page) : Adds P p p :=
  ⟨[], by simp, (tellAll_nil p).symm⟩

theorem trans (hq : Adds P p q) (hr : Adds P q r) : Adds P p r := by
  obtain ⟨is, his, rfl⟩ := hq
  obtain ⟨js, hjs, rfl⟩ := hr
  exact ⟨is ++ js, List.forall_mem_append.2 ⟨his, hjs⟩, tellAll_tellAll is js p⟩

theorem mono (h : Adds P p q) (hP : ∀ i, P i → Q i) : Adds Q p q := by
  obtain ⟨is, his, rfl⟩ := h
  exact ⟨is, fun i hi => hP i (his i hi), rfl⟩

theorem tell (hi : P i) (p : Page) : Adds P p (p.tell i) :=
  ⟨[i], by simpa using hi, tell_eq i p⟩

theorem perform (hi : P i) (p : Page) : Adds P p (p.perform i).state :=
  ⟨[i], by simpa using hi, state_perform i p⟩

/-- An operation in two parts adds what its parts add; the second one starts from whatever the first
one leaves. -/
theorem andThen (ho : Adds P p o.state) (hf : ∀ q, Adds P p q → Adds P q (f q).state) :
    Adds P p (o.andThen f).state := by
  cases h : o.fault with
  | some x => rwa [Outcome.andThen_of_some h]
  | none =>
    rw [Outcome.andThen_of_none h]
    exact ho.trans (hf _ ho)

/-- Of several instructions those up to the first refused one are added. -/
theorem performAll (his : ∀ i ∈ is, P i) (p : Page) : Adds P p (p.performAll is).state := by
  induction is generalizing p with
  | nil => exact refl p
  | cons i is ih =>
    rw [List.forall_mem_cons] at his
    exact (perform his.1 p).andThen fun q _ => ih his.2 q

/-- A value that cannot be had adds nothing. -/
theorem withValue {A : Type} {x : Except ValueFault A} {f : A → Outcome Page}
    (hf : ∀ a, x = .ok a → Adds P p (f a).state) : Adds P p (Outcome.withValue p x f).state := by
  cases x with
  | ok a => exact hf a rfl
  | error e => exact refl p

/-- Before a document is begun nothing is added. -/
theorem onDocument (hf : Adds P p (f p).state) : Adds P p (p.onDocument f).state := by
  unfold Page.onDocument
  split
  · exact hf
  · exact refl p

theorem afterwards (ho : Adds P p o.state) (hf : ∀ q, Adds P q (f q).state) :
    Adds P p (o.afterwards f).state :=
  ho.trans (hf o.state)

end Adds

/-! ## Drawing -/

variable (p : Page)

/-- A rectangle is given by its lower edge, which is as far below the upper one as it is high. -/
theorem rectangle_eq_ok {x y width height : Json} {i : Instruction}
    (h : p.rectangle x y width height = .ok i) :
    ∃ left sum bottom across down, x.factor = .ok left ∧ y.plus height = .ok sum ∧
      sum.toFloat = .ok bottom ∧ width.factor = .ok across ∧ height.factor = .ok down ∧
      let f := Geometry.frame millimetre p.height left bottom across down
      i = .rectangle f.x f.y f.width f.height := by
  unfold rectangle at h
  obtain ⟨left, hleft, h⟩ := Except.bind_eq_ok.1 h
  obtain ⟨sum, hsum, h⟩ := Except.bind_eq_ok.1 h
  obtain ⟨bottom, hbottom, h⟩ := Except.bind_eq_ok.1 h
  obtain ⟨across, hacross, h⟩ := Except.bind_eq_ok.1 h
  obtain ⟨down, hdown, h⟩ := Except.bind_eq_ok.1 h
  exact ⟨left, sum, bottom, across, down, hleft, hsum, hbottom, hacross, hdown,
    (Except.ok.inj h).symm⟩

theorem marks_rectangle {x y width height : Json} {i : Instruction}
    (h : p.rectangle x y width height = .ok i) : i.marks = true := by
  obtain ⟨_, _, _, _, _, -, -, -, -, -, rfl⟩ := rectangle_eq_ok p h
  rfl

/-- Drawing a text adds marks only. -/
theorem addsMarks_drawText (text : Argument) : Adds (·.marks = true) p (p.drawText text).state := by
  unfold drawText
  split
  · exact .refl p
  · exact .onDocument (.performAll (by simp [Instruction.marks]) p)

/-- So does drawing a rectangle, filled or not. -/
theorem addsMarks_drawRect (x y width height thickness : Json) (ink : Argument) :
    Adds (·.marks = true) p (p.drawRect x y width height thickness ink).state := by
  refine .onDocument (.withValue fun c _ => .andThen (.perform (by rfl) p) fun q _ => ?_)
  refine .withValue fun t _ => .andThen (.perform (by rfl) q) fun r _ => .withValue fun i hi => ?_
  exact .perform (marks_rectangle r hi) r

/-- A call adds instructions that draw. -/
abbrev AddsDrawing (p q : Page) : Prop :=
  Adds (·.draws = true) p q

theorem addsDrawing_drawText (text : Argument) : AddsDrawing p (p.drawText text).state :=
  (addsMarks_drawText p text).mono fun _ => Instruction.draws_of_marks

theorem addsDrawing_drawRect (x y width height thickness : Json) (ink : Argument) :
    AddsDrawing p (p.drawRect x y width height thickness ink).state :=
  (addsMarks_drawRect p ..).mono fun _ => Instruction.draws_of_marks

/-- What is saved before a barcode is placed is restored afterwards; nothing of the page is lost. -/
theorem addsDrawing_place (o : Orientation) (width height barHeight module : Float) :
    AddsDrawing p (p.place o width height barHeight module).state := by
  refine .andThen (.perform (by rfl) p) fun q _ =>
    .afterwards (.performAll ?_ q) fun r => .perform (by rfl) r
  simp [Instruction.draws]

/-- A barcode is drawn by instructions that draw, with its turn before and after it. -/
theorem addsDrawing_drawFormatted (content : Argument) (f : Formatting) :
    AddsDrawing p (p.drawFormatted content f).state := by
  refine .withValue fun (height, module) _ => .andThen (.perform (by rfl) p) fun q _ => ?_
  refine .trans (.tell (by rfl) q) (.withValue fun o _ => .onDocument ?_)
  exact addsDrawing_place ..

/-- Whatever a barcode is refused for, nothing but drawing was done for it. -/
theorem addsDrawing_drawBarcode (content style : Argument) :
    AddsDrawing p (p.drawBarcode content style).state := by
  unfold drawBarcode
  split
  · exact .refl p
  · split
    · exact addsDrawing_drawFormatted p content _
    · exact .refl p

end Page

end LabelPress
