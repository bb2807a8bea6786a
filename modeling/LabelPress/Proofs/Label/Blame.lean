import LabelPress.Proofs.Label.Checked

/-!
# Which command a fault names

An argument that is refused is refused in the name of the command that it was given to, written as the
command is written in labels (`Label.command_of_step`). No fault of an argument names anything else.
-/

namespace LabelPress

/-- The fault names a command that labels understand. -/
def ArgumentFault.NamesVerb (e : ArgumentFault) : Prop :=
  ∃ v : Verb, e.command = v.code

/-! ## Checks -/

namespace Argument

/-- An answer that refuses in the name of one command only. -/
abbrev Blames {A : Type} (command : String) (x : Except ArgumentFault A) : Prop :=
  FailsOnly (fun e => e.command = command) x

variable {A B : Type} {command field : String}

namespace Blames

theorem bind {x : Except ArgumentFault A} {f : A → Except ArgumentFault B}
    (hx : Blames command x) (hf : ∀ a, Blames command (f a)) : Blames command (x >>= f) :=
  FailsOnly.bind hx hf

theorem integer (arg : Option Text) (usual low high : Int) :
    Blames command (Argument.integer command field arg usual low high) :=
  fun _ h => (names_integer h).1

/-- The extent of a box is read as a number, or is the thickness. -/
theorem extent (arg : Option Text) (thickness high : Int) :
    Blames command (Argument.extent command field arg thickness high) := by
  intro e h
  cases arg with
  | none => cases h
  | some text => exact (names_integerWithin h).1

/-- A letter that is not among the choices is refused in the name of the command. -/
theorem choice (arg : Option Text) (usual : String) (choices : List String) :
    Blames command (Argument.choice command field arg usual choices) := by
  intro e h
  cases arg with
  | none => cases h
  | some text =>
    simp only [Argument.choice] at h
    split at h
    · cases h
    · cases h
      rfl

theorem ratio (arg : Option Text) (usual : Float) :
    Blames command (Argument.ratio command field arg usual) :=
  fun _ h => (names_ratio h).1

end Blames

end Argument

namespace Label

open Argument (Blames)

/-- The dots of a font are two arguments, of which either may be refused. -/
theorem blames_fontDots (args : List Text) : Blames Verb.font.code (fontDots args) := by
  have hsize : Blames Verb.font.code (do
      let height ← Argument.integer "A" "h" (Argument.get? args 1) minFontDots minFontDots maxDots
      Argument.integer "A" "w" (Argument.get? args 2) height minFontDots maxDots) :=
    .bind (.integer _ _ _ _) fun _ => .integer _ _ _ _
  unfold fontDots
  cases Argument.get? args 0 with
  | none => exact hsize
  | some font =>
    simp only
    split
    · exact .bind (.choice _ _ _) fun _ => hsize
    · exact hsize

/-- The arguments of a barcode are checked one after another under one name. -/
theorem blames_checkBarcode (args : List Text) (l : Label) :
    Blames Verb.barcode.code (checkBarcode args l) :=
  .bind (.choice _ _ _) fun _ => .bind (.integer _ _ _ _) fun _ => .bind (.choice _ _ _) fun _ =>
    .bind (.choice _ _ _) fun _ => .bind (.choice _ _ _) fun _ => .bind (.choice _ _ _) fun _ =>
      .ok _

theorem blames_boxOf (args : List Text) : Blames Verb.box.code (boxOf args) :=
  .bind (.integer _ _ _ _) fun _ => .bind (.extent _ _ _) fun _ => .bind (.extent _ _ _) fun _ =>
    .bind (.choice _ _ _) fun _ => .bind (.integer _ _ _ _) fun _ => .ok _

/-- Two coordinates, each a number of dots. -/
theorem blames_point {command : String} (args : List Text) :
    Blames command (do
      return (← Argument.integer command "x" (Argument.get? args 0) 0 0 maxDots,
        ← Argument.integer command "y" (Argument.get? args 1) 0 0 maxDots)) :=
  .bind (.integer _ _ _ _) fun _ => .bind (.integer _ _ _ _) fun _ => .ok _

end Label

/-! ## Commands -/

namespace Step

/-- A step that refuses arguments in the name of one command only. -/
abbrev Blames (v : Verb) (s : Step) : Prop :=
  s.Keeps (fun _ => True) (fun _ => True) fun x => ∀ e, x = .argument e → e.command = v.code

variable {v : Verb} {s : Step} {l : Label}

theorem Blames.of_unargued (h : s.Unargued) : s.Blames v :=
  h.mono (fun _ _ => trivial) (fun _ _ => trivial) fun _ hx e he => absurd he (hx e)

theorem Blames.withArgument {A : Type} {x : Except ArgumentFault A} {f : A → Step}
    (hx : Argument.Blames v.code x) (hf : ∀ a, (f a).Blames v) : (Step.withArgument l x f).Blames v :=
  Keeps.withArgument (fun e he e' h => by cases h; exact hx e he) fun a _ => hf a

end Step

namespace Label

open Argument (Blames)
open Step (Unargued)

/-- Each verb blames itself: those with arguments read them under their own name, and the others
refuse none. -/
theorem blames_perform (v : Verb) (args : List Text) (l : Label) : (perform v args l).Blames v := by
  -- verb by verb: the checks come first, and what follows refuses no argument
  cases v with
  | font =>
    exact .withArgument (blames_fontDots args) fun _ =>
      .of_unargued (.withValue fun _ => unargued_call _ _)
  | namedFont => exact .of_unargued (.note trivial)
  | barcode =>
    exact .withArgument (blames_checkBarcode args l) fun _ => .of_unargued (.done trivial)
  | barcodeDefaults =>
    exact .withArgument (.integer _ _ _ _) fun _ => .withArgument (.ratio _ _) fun _ =>
      .withArgument (.integer _ _ _ _) fun _ => .of_unargued (.done trivial)
  | fieldData =>
    unfold perform fieldData
    simp only
    split
    · exact .of_unargued (.done trivial)
    · exact .of_unargued (unargued_call _ _)
  | fieldOrigin =>
    exact .withArgument (blames_point args) fun _ =>
      .of_unargued (.andThen (unargued_goTo _ _ l) fun _ => .done trivial)
  | fieldEnd => exact .of_unargued (unargued_fieldEnd l)
  | box =>
    exact .withArgument (blames_boxOf args) fun _ =>
      .of_unargued (.withValue fun _ => unargued_call _ _)
  | home =>
    exact .withArgument (blames_point args) fun _ =>
      .of_unargued (.withValue fun _ => .done trivial)

variable {l : Label} {e : ArgumentFault}

/-- A command that is refused for an argument is named by the fault. -/
theorem command_of_step {name : Text} {args : List Text}
    (h : (l.step name args).fault = some (.argument e)) :
    ∃ v, Verb.ofName? name = some v ∧ e.command = v.code := by
  unfold step at h
  split at h
  · next v hname => exact ⟨v, hname, (blames_perform v args l).fault _ h e rfl⟩
  · cases h

/-- So it is if it stands among others. -/
theorem command_of_steps {cs : List Command} (h : (l.steps cs).fault = some (.argument e)) :
    ∃ c ∈ cs, ∃ v, Verb.ofName? c.name = some v ∧ e.command = v.code := by
  obtain ⟨before, c, after, rfl, -, hfault⟩ := exists_of_fault h
  exact ⟨c, by simp, command_of_step hfault⟩

end Label

end LabelPress
