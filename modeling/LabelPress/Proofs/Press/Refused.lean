import LabelPress.Proofs.Conversion.Stopped

/-!
# Commands that are refused

A command with an argument that is not allowed is refused, and the press goes on with the next one. On
a surface that writes down its calls, such a command does nothing else:

* `Press.refused_dispatch`: it makes no call and leaves no note, and the label is as it was. Only `BY`
  may leave another label, with the values that stand before the refused one.
* `Press.after_effective`: so a history is the same without the commands that were refused, those with
  the name `BY` excepted.

A page is another matter: it draws the barcode at the end of a field, and may refuse its content.
-/

namespace LabelPress

namespace Press

variable {p : Press}

/-! ## One command -/

/-- Where the press refuses an argument, the step is nothing but this refusal. -/
theorem step_of_refused (hp : p.surface.IsWritten) {name : Text} {args : List Text}
    {e : ArgumentFault} (h : (p.dispatch name args).fault = some (.argument e)) :
    ∃ m, p.label.step name args = .fail m (.argument e) ∧ Label.Leaves name args p.label e m := by
  -- such a surface refuses none of the calls, so the fault is one of the step
  have hstep := (take_written hp (Label.regular_step name args p.label).calls).1
  unfold dispatch at h
  rw [h] at hstep
  exact Label.refuses_step name args p.label e hstep.symm

theorem dispatch_of_fail {name : Text} {args : List Text} {m : Label} {x : Fault}
    (h : p.label.step name args = .fail m x) :
    p.dispatch name args = .refused { p with label := m } x := by
  unfold dispatch
  rw [h]
  rfl

/-- A command that is refused for an argument makes no call and leaves no note, and the label is as it
was. Only `BY` leaves the values set that stand before the refused one. -/
theorem refused_dispatch (hp : p.surface.IsWritten) {name : Text} {args : List Text}
    {e : ArgumentFault} (h : (p.dispatch name args).fault = some (.argument e)) :
    ∃ m, p.dispatch name args = .refused { p with label := m } (.argument e) ∧
      if Verb.ofName? name = some .barcodeDefaults then Label.HalfSet args p.label e.field m
      else m = p.label := by
  obtain ⟨m, hm, hleaves⟩ := step_of_refused hp h
  exact ⟨m, dispatch_of_fail hm, hleaves⟩

/-- A box that is narrower than its line, on a trace. -/
theorem refused_dispatch_box :
    let p : Press := { label := { resolution := some (.int 8) }, surface := .trace {} }
    let e : ArgumentFault := ⟨"GB", "w", .outside (.int 1) (.fromThickness 2 Label.maxDots)⟩
    p.surface.IsWritten ∧ (p.dispatch "GB" ["1", "9", "2"]).fault = some (.argument e) ∧
      ∃ m, p.dispatch "GB" ["1", "9", "2"] = .refused { p with label := m } (.argument e) ∧
        if Verb.ofName? "GB" = some .barcodeDefaults then
          Label.HalfSet ["1", "9", "2"] p.label e.field m
        else m = p.label :=
  ⟨trivial, rfl, refused_dispatch (p := { label := _, surface := .trace {} }) trivial rfl⟩

/-- A height that is not allowed is refused, but the width of the bars has been set. -/
theorem moduleWidth_refused :
    let p := (start (some (.int 8)) (.int 100) (.int 50) (.recording {})).state
    let o := p.dispatch "BY" ["5", "", "0"]
    (∃ e, o.fault = some (.argument e)) ∧ p.label.moduleWidth = 2 ∧
      o.state.label.moduleWidth = 5 :=
  ⟨⟨_, rfl⟩, rfl, rfl⟩

/-! ## Histories -/

/-- The command is refused for an argument, and is not `BY`. -/
def isRefused (c : Command) (p : Press) : Bool :=
  match (p.dispatch c.name c.args).fault with
  | some (.argument _) => Verb.ofName? c.name != some .barcodeDefaults
  | _ => false

/-- The commands of a history without those that are refused. -/
def effective : List Command → Press → List Command
  | [], _ => []
  | c :: cs, p =>
    if isRefused c p then effective cs p
    else c :: effective cs (p.dispatch c.name c.args).state

theorem isRefused_iff {c : Command} :
    isRefused c p = true ↔ (∃ e, (p.dispatch c.name c.args).fault = some (.argument e)) ∧
      Verb.ofName? c.name ≠ some .barcodeDefaults := by
  unfold isRefused
  split
  · next e he => simp [he]
  · next hne => exact iff_of_false Bool.false_ne_true fun ⟨⟨e, he⟩, _⟩ => hne e he

/-- Commands that are refused may be left out: the press is the same at the end, and the same calls
have reached its surface. -/
theorem after_effective (hp : p.surface.IsWritten) (cs : List Command) :
    after (effective cs p) p = after cs p ∧ calls (effective cs p) p = calls cs p := by
  -- by induction on the commands: a refused one leaves the press of which the rest is to be said
  induction cs generalizing p with
  | nil => exact ⟨rfl, rfl⟩
  | cons c cs ih =>
    unfold effective
    split
    · next hc =>
      obtain ⟨⟨e, he⟩, hname⟩ := isRefused_iff.1 hc
      obtain ⟨m, hm, hleaves⟩ := step_of_refused hp he
      obtain rfl : m = p.label := by simpa [Label.Leaves, hname] using hleaves
      have hstate : (p.dispatch c.name c.args).state = p := by
        rw [dispatch_of_fail hm]
        rfl
      have hreached : p.surface.reached (p.label.step c.name c.args).calls = [] := by
        rw [hm]
        rfl
      rw [after, calls, hstate, hreached, List.nil_append]
      exact ih hp
    · have hplain := (Label.regular_step c.name c.args p.label).calls
      have hnext : (p.dispatch c.name c.args).state.surface.IsWritten :=
        (take_written hp hplain).2.2.2
      obtain ⟨hafter, hcalls⟩ := ih hnext
      exact ⟨hafter, congrArg (p.surface.reached (p.label.step c.name c.args).calls ++ ·) hcalls⟩

end Press

end LabelPress
