import LabelPress.Playback
import LabelPress.Proofs.Schema.Drawing
import LabelPress.Proofs.Surface.Refusals

/-!
# What the schema keeps from a playback

A value is checked as a whole before any of it is played. A value that is no recorded drawing is
refused with a violation, and the surface is not asked for anything. A value that is one has a
primitive and arguments in every entry, so no entry can be without a name, name something else, or
give its arguments without names. What is left to go wrong are the values of the arguments.

`Playback.run_guarded` says how far such a playback comes: the entries in front are called one by
one, and it ends behind the last entry, or at one of which no call can be made (`IsUnfit`), or at one
whose call the surface refuses.
-/

namespace LabelPress.Playback

open Drawing (IsDrawing IsEntry)

/-- The entry names the primitive of the call, and its arguments make the call. -/
def IsCallOf (entry : Json) (c : Call) : Prop :=
  ∃ args, entry.get? "name" = some (.string c.primitive.name) ∧
    entry.get? "args" = some (.object args) ∧ call c.primitive args = .ok c

/-- A fault that the arguments of a call are to blame for. -/
def BlamesArguments (fault : Fault) : Prop :=
  fault = .wrongArguments ∨ ∃ v, fault = .value v

/-- The entry names a primitive, but its arguments make no call: there are too few or too many of
them, or one of them cannot be used. -/
def IsUnfit (entry : Json) (fault : Fault) : Prop :=
  ∃ p args, entry.get? "name" = some (.string (Primitive.name p)) ∧
    entry.get? "args" = some (.object args) ∧ call p args = .error fault ∧ BlamesArguments fault

/-- What comes of a playback on a surface that has taken these calls, with these entries to go. -/
inductive Ends (s : Surface) (calls : List Call) : List Json → Outcome Surface → Prop where
  | behindLast : Ends s calls [] (s.drawAll calls)
  | unfit {entry : Json} {rest : List Json} {fault : Fault} (h : IsUnfit entry fault) :
    Ends s calls (entry :: rest) { s.drawAll calls with fault := some fault }
  | refused {entry : Json} {rest : List Json} {c : Call} (h : IsCallOf entry c)
      (hfault : (s.drawAll (calls ++ [c])).fault ≠ none) :
    Ends s calls (entry :: rest) (s.drawAll (calls ++ [c]))

/-! ## Single entries -/

theorem primitive_of_call? {p : Primitive} {args : List Argument} {c : Call}
    (h : p.call? args = some c) : c.primitive = p := by
  unfold Primitive.call? at h
  split at h <;> cases h <;> rfl

theorem primitive_of_callNamed? {p : Primitive} {args : List (Text × Argument)} {c : Call}
    (h : p.callNamed? args = some c) : c.primitive = p := by
  unfold Primitive.callNamed? at h
  obtain ⟨-, -, hrest⟩ := Option.bind_eq_some_iff.1 h
  obtain ⟨values, -, hcall⟩ := Option.bind_eq_some_iff.1 hrest
  exact primitive_of_call? hcall

/-- What is made of arguments is a call of the primitive, or their fault. -/
def MakesCall (p : Primitive) (made : Except Fault Call) : Prop :=
  (∃ c, made = .ok c ∧ c.primitive = p) ∨ ∃ fault, made = .error fault ∧ BlamesArguments fault

theorem makesCall_ok {p : Primitive} {c : Call} (h : c.primitive = p) : MakesCall p (.ok c) :=
  .inl ⟨c, rfl, h⟩

theorem makesCall_wrong (p : Primitive) : MakesCall p (.error .wrongArguments) :=
  .inr ⟨_, rfl, .inl rfl⟩

theorem makesCall_named (p : Primitive) (args : List (Text × Argument)) :
    MakesCall p (match p.callNamed? args with
      | some c => .ok c
      | none => .error .wrongArguments) := by
  split
  · next h => exact makesCall_ok (primitive_of_callNamed? h)
  · exact makesCall_wrong p

theorem makesCall_rectCall (args : List (Text × Json)) : MakesCall .drawRect (rectCall args) := by
  unfold rectCall
  split
  · exact makesCall_wrong _
  split
  · exact makesCall_wrong _
  split
  · exact .inr ⟨_, rfl, .inr ⟨_, rfl⟩⟩
  · exact makesCall_named _ _

theorem makesCall_barcodeCall (args : List (Text × Json)) :
    MakesCall .drawBarcode (barcodeCall args) := by
  unfold barcodeCall
  split
  · split
    · exact makesCall_ok rfl
    · exact makesCall_wrong _
  · exact makesCall_wrong _

/-- Whatever the arguments are, the call is of the primitive that was named. -/
theorem makesCall_call (p : Primitive) (args : List (Text × Json)) : MakesCall p (call p args) := by
  cases p with
  | drawRect => exact makesCall_rectCall args
  | drawBarcode => exact makesCall_barcodeCall args
  | _ => exact makesCall_named _ _

/-- An entry with a known name is a call of that name. -/
theorem entryCall_of_name {entry : Json} {p : Primitive} {args : List (Text × Json)}
    (hname : entry.get? "name" = some (.string p.name))
    (hargs : entry.get? "args" = some (.object args)) : entryCall entry = call p args := by
  obtain ⟨members, rfl, hfirst⟩ := Json.get?_eq_some.1 hname
  have hsecond : Json.lookup? members "args" = some (.object args) := hargs
  have hprimitive : primitive (.string p.name) = .ok p := by
    simp only [primitive, Primitive.ofName?_name]
  unfold entryCall
  simp only [hfirst, hsecond, Option.getD_some, hprimitive]
  rfl

/-- Of an entry either a call is made, or its arguments are to blame. -/
theorem entryCall_cases {entry : Json} (h : IsEntry entry) :
    (∃ c, entryCall entry = .ok c ∧ IsCallOf entry c) ∨
      ∃ fault, entryCall entry = .error fault ∧ IsUnfit entry fault := by
  obtain ⟨p, args, hname, hargs⟩ := h
  rw [entryCall_of_name hname hargs]
  obtain ⟨c, hcall, rfl⟩ | ⟨fault, hcall, hfault⟩ := makesCall_call p args
  · exact Or.inl ⟨c, hcall, args, hname, hargs, hcall⟩
  · exact Or.inr ⟨fault, hcall, p, args, hname, hargs, hcall, hfault⟩

/-! ## All entries -/

variable {s : Surface} {calls : List Call} {entries : List Json} {o : Outcome Surface}

/-- With one call more in front, a playback ends in the same way. -/
theorem Ends.cons {c : Call} (hc : (s.draw c).fault = none)
    (h : Ends (s.draw c).state calls entries o) :
    Ends s (c :: calls) entries
      ⟨o.state, (s.draw c).notes ++ o.notes, o.fault⟩ := by
  have hdraw (cs : List Call) : s.drawAll (c :: cs) =
      ⟨((s.draw c).state.drawAll cs).state, (s.draw c).notes ++ ((s.draw c).state.drawAll cs).notes,
        ((s.draw c).state.drawAll cs).fault⟩ :=
    Outcome.andThen_of_none hc _
  -- a call in front of the others does not change how they end
  cases h with
  | behindLast =>
    rw [← hdraw]
    exact .behindLast
  | @unfit entry rest fault h =>
    have hlast : Ends s (c :: calls) (entry :: rest)
        { s.drawAll (c :: calls) with fault := some fault } := .unfit h
    rwa [hdraw] at hlast
  | @refused entry rest d h hfault =>
    have hlast : s.drawAll (c :: calls ++ [d]) = _ := hdraw (calls ++ [d])
    rw [← hlast]
    refine .refused h ?_
    rw [hlast]
    exact hfault

/-- The entries in front are called one by one, up to the last or to the first of which nothing comes. -/
theorem playAll_ends (h : ∀ e ∈ entries, IsEntry e) (s : Surface) :
    ∃ before calls after, entries = before ++ after ∧ List.Forall₂ IsCallOf before calls ∧
      (s.drawAll calls).fault = none ∧ Ends s calls after (playAll entries s) := by
  induction entries generalizing s with
  | nil => exact ⟨[], [], [], rfl, .nil, rfl, .behindLast⟩
  | cons e entries ih =>
    rw [List.forall_mem_cons] at h
    rw [playAll, playEntry]
    obtain ⟨c, hcall, hof⟩ | ⟨fault, hcall, hunfit⟩ := entryCall_cases h.1
    · rw [hcall]
      cases hfault : (s.draw c).fault with
      | some x =>
        -- the first call is refused, and nothing has been called before it
        have hone : s.drawAll ([] ++ [c]) = s.draw c := Outcome.andThen_of_some hfault _
        refine ⟨[], [], e :: entries, rfl, .nil, rfl, ?_⟩
        simp only [Outcome.andThen_of_some hfault]
        rw [← hone]
        refine .refused hof ?_
        rw [hone, hfault]
        exact Option.some_ne_none x
      | none =>
        obtain ⟨before, calls, after, rfl, hcalls, hnone, hends⟩ := ih h.2 (s.draw c).state
        refine ⟨e :: before, c :: calls, after, rfl, .cons hof hcalls, ?_, ?_⟩
        · rw [Surface.drawAll, Outcome.fault_andThen hfault]
          exact hnone
        · simp only [Outcome.andThen_of_none hfault]
          exact hends.cons hfault
    · rw [hcall]
      exact ⟨[], [], e :: entries, rfl, .nil, rfl, .unfit hunfit⟩

/-- However a playback ends, the arguments or the surface are to blame. -/
theorem Ends.fault_ne_playback (h : Ends s calls entries o) (f : PlaybackFault) :
    o.fault ≠ some (.playback f) := by
  intro hfault
  cases h with
  | behindLast => exact Surface.ordinary_drawAll calls s _ hfault
  | unfit h =>
    obtain ⟨-, -, -, -, -, hblames⟩ := h
    cases hfault
    rcases hblames with hwrong | ⟨v, hvalue⟩
    · cases hwrong
    · cases hvalue
  | refused => exact Surface.ordinary_drawAll _ s _ hfault

/-- A value that is no recorded drawing is refused for a violation, and the surface is left alone. Of
one that is a recorded drawing the entries are called in order, each once, up to the last one or to
the first that fails, and nothing behind that. In neither case can an entry be without a name, name
no primitive, or have arguments without names. -/
theorem run_guarded (x : Json) (s : Surface) :
    (¬ IsDrawing x → ∃ v, run x s = .refused s (.violation v)) ∧
    (IsDrawing x → ∃ entries before calls after,
      x.get? "commands" = some (.array entries) ∧ entries = before ++ after ∧
      List.Forall₂ IsCallOf before calls ∧ (s.drawAll calls).fault = none ∧
      Ends s calls after (run x s)) ∧
    ∀ f, (run x s).fault ≠ some (.playback f) := by
  -- the schema is met by drawings and by nothing else
  by_cases h : IsDrawing x
  · obtain ⟨entries, hcommands, hentries⟩ := h.commands
    have hrun : run x s = playAll entries s := by
      unfold run
      rw [Drawing.check_eq_none.2 h, hcommands]
      rfl
    obtain ⟨before, calls, after, hsplit, hcalls, hnone, hends⟩ := playAll_ends hentries s
    rw [hrun]
    exact ⟨fun hnot => absurd h hnot,
      fun _ => ⟨entries, before, calls, after, hcommands, hsplit, hcalls, hnone, hends⟩,
      hends.fault_ne_playback⟩
  · obtain ⟨v, hv⟩ := Drawing.exists_violation h
    have hrun : run x s = .refused s (.violation v) := by
      unfold run
      rw [hv]
      rfl
    rw [hrun]
    refine ⟨fun _ => ⟨v, rfl⟩, fun hdrawing => absurd hdrawing h, fun f hf => ?_⟩
    cases hf

/-- A drawing of three entries, the second of which has no arguments. -/
theorem run_guarded_unfit :
    let entry (name : String) (args : List (Text × Json)) : Json :=
      .object [("name", .string name), ("args", .object args)]
    let entries := [entry "DrawText" [("text", .string "a")], entry "SetFontSize" [],
      entry "DrawText" [("text", .string "b")]]
    let x : Json := .object [("version", .string "1.0"), ("commands", .array entries)]
    IsDrawing x ∧ ∃ before calls after, entries = before ++ after ∧
      List.Forall₂ IsCallOf before calls ∧ Ends (.trace {}) calls after (run x (.trace {})) := by
  intro entry entries x
  have hx : IsDrawing x := Drawing.check_eq_none.1 (by rfl)
  obtain ⟨es, before, calls, after, hes, hsplit, hcalls, -, hends⟩ :=
    (run_guarded x (.trace {})).2.1 hx
  cases hes
  exact ⟨hx, before, calls, after, hsplit, hcalls, hends⟩

end LabelPress.Playback
