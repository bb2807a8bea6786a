import LabelPress.Proofs.Label.Checked
import LabelPress.Proofs.Press.Watch
import LabelPress.Proofs.Surface.Taken

/-!
# What a stopped conversion leaves behind

A recording or a trace shows how far a conversion has come that ends with a fault
(`Conversion.stopsCleanly`):

* a label that cannot be read leaves the surface as it was;
* one whose envelope is not in order leaves the two calls with which every conversion begins;
* one with a command that is refused for an argument leaves these two calls and those that the
  commands before make, each dispatched by itself. The refused command adds nothing.

This rests on `Label.steps_of_argument`, arguments being checked before anything is asked for, and on
`Press.after_written`: such a surface refuses nothing that a label asks for, so that the label alone
says what comes of commands.
-/

namespace LabelPress

/-! ## Commands one by one -/

namespace Press

variable {p : Press}

/-- A step with plain calls is taken as a whole. -/
theorem take_written {t : Step} (hp : p.surface.IsWritten) (ht : ∀ c ∈ t.calls, c.IsPlain) :
    (p.take t).fault = t.fault ∧ (p.take t).state.label = t.label ∧
      p.surface.reached t.calls = t.calls ∧ (p.take t).state.surface.IsWritten := by
  have hnone := Surface.drawAll_isPlain hp ht
  have hplay : (play t.events p).fault = none := by
    rw [(play_surface t.events t.label t.fault p).2]
    exact hnone
  obtain ⟨hreached, htook⟩ := Surface.took_drawAll hp hnone
  rw [fault_take, surface_take, hnone]
  exact ⟨rfl, label_take_of_play hplay, hreached, htook.isWritten⟩

/-- On such a surface the label alone says what comes of commands that are dispatched one by one. If
they all go through, their calls are those of all of them together. -/
theorem after_written (hp : p.surface.IsWritten) (cs : List Command) :
    ((∀ x ∈ faults cs p, x = none) ↔ (p.label.steps cs).fault = none) ∧
      ((p.label.steps cs).fault = none →
        (p.after cs).label = (p.label.steps cs).label ∧ p.calls cs = (p.label.steps cs).calls ∧
          (p.after cs).surface = (p.surface.drawAll (p.label.steps cs).calls).state ∧
          (p.after cs).surface.IsWritten) := by
  -- by induction on the commands, with the press as each of them leaves it
  induction cs generalizing p with
  | nil => exact ⟨by simp [faults, Label.steps], fun _ => ⟨rfl, rfl, rfl, hp⟩⟩
  | cons c cs ih =>
    have hplain := (Label.regular_step c.name c.args p.label).calls
    obtain ⟨hfault, hlabel, hreached, hwritten⟩ := take_written hp hplain
    obtain ⟨hiff, hrest⟩ := ih hwritten
    have hsteps : p.label.steps (c :: cs) =
        (p.label.step c.name c.args).andThen (Label.steps cs) := rfl
    rw [hlabel] at hiff hrest
    unfold faults after calls dispatch
    refine ⟨?_, fun hnone => ?_⟩
    · rw [List.forall_mem_cons, hsteps, Step.fault_andThen_eq_none, hfault, hiff]
    · rw [hsteps, Step.fault_andThen_eq_none] at hnone
      obtain ⟨hlabels, hcalls, hsurface, hlast⟩ := hrest hnone.2
      rw [hsteps, Step.label_andThen hnone.1, Step.calls_andThen _ hnone.1, hreached, hcalls,
        Surface.drawAll_append, Outcome.andThen_of_none (Surface.drawAll_isPlain hp hplain)]
      refine ⟨hlabels, rfl, ?_, hlast⟩
      rw [hsurface, surface_take]

/-- Where the commands of a label stop, they also stop when they are dispatched one by one. -/
theorem stops_written (hp : p.surface.IsWritten) (before : List Command) (c : Command) (x : Fault) :
    ((∀ y ∈ faults before p, y = none) ∧
        ((p.after before).dispatch c.name c.args).fault = some x) ↔
      (p.label.steps before).fault = none ∧
        ((p.label.steps before).label.step c.name c.args).fault = some x := by
  obtain ⟨hiff, hafter⟩ := after_written hp before
  rw [hiff]
  refine and_congr_right fun hnone => ?_
  obtain ⟨hlabel, -, -, hwritten⟩ := hafter hnone
  unfold dispatch
  rw [(take_written hwritten (Label.regular_step _ _ _).calls).1, hlabel]

end Press

namespace Conversion

open Surface (IsWritten Took)

/-! ## The beginning -/

/-- The press with which a conversion begins. -/
def begun (s : Settings) (surface : Surface) : Outcome Press :=
  Press.start (some s.resolution) (.number s.width) (.number s.height) surface

/-- The calls with which a conversion begins. -/
def opening (s : Settings) : List Call :=
  [.createDocument (.number s.width) (.number s.height), .setFontSize (.float Label.defaultFontSize)]

variable {r : Reader} {s : Settings} {surface : Surface} {commands : List Command}

/-- A label begins unless its surface refuses the opening calls. -/
theorem fault_begun (s : Settings) (surface : Surface) :
    (begun s surface).fault = (surface.drawAll (opening s)).fault := by
  have hnone : (Label.start (some s.resolution) (.number s.width) (.number s.height)).fault =
      none := rfl
  unfold begun Press.start
  rw [Press.fault_take, hnone, Option.or_none]
  rfl

theorem surface_begun (s : Settings) (surface : Surface) :
    (begun s surface).state.surface = (surface.drawAll (opening s)).state :=
  Press.surface_take _ _

theorem label_begun (h : (begun s surface).fault = none) :
    (begun s surface).state.label = .first (some s.resolution) :=
  (Press.of_take_none h).2

/-- A conversion begins if the sides of its page are floating-point numbers. -/
theorem fault_begun_iff (hs : surface.IsWritten) :
    (begun s surface).fault = none ↔ ∃ x y, s.width.toFloat = .ok x ∧ s.height.toFloat = .ok y := by
  rw [fault_begun, ← Surface.draw_createDocument_iff hs]
  unfold opening
  rw [Surface.drawAll]
  rcases Surface.draw_cases hs (.createDocument (.number s.width) (.number s.height)) with
    ⟨v, hv⟩ | ⟨hnone, htook⟩
  · rw [Outcome.andThen_of_some hv]
  · have hfont := Surface.drawAll_isPlain htook.isWritten
      (List.forall_mem_singleton.2 (Call.IsPlain.setFontSize Label.defaultFontSize))
    rw [Outcome.fault_andThen hnone]
    exact iff_of_true hfont hnone

/-! ## The commands -/

/-- What the commands of a conversion do once it has begun. -/
def carried (s : Settings) (commands : List Command) : Step :=
  Label.enveloped commands (.first (some s.resolution))

/-- No later call opens a document. -/
theorem isPlain_carried (s : Settings) (commands : List Command) :
    ∀ c ∈ (carried s commands).calls, c.IsPlain := by
  unfold carried Label.enveloped
  cases Label.interior commands with
  | error fault =>
    intro c hc
    cases hc
  | ok inner => exact (Label.regular_steps inner _).calls

/-- A conversion draws its calls, and is finished unless something stops it. -/
theorem withSettings_of_ok (s : Settings) (surface : Surface) (hread : r.commands.2 = .ok commands) :
    ((withSettings r s surface).surface, (withSettings r s surface).result) =
      match (surface.drawAll (opening s ++ (carried s commands).calls)).fault.or
          (carried s commands).fault with
      | some x => ((surface.drawAll (opening s ++ (carried s commands).calls)).state, .error x)
      | none => (surface.drawAll (opening s ++ (carried s commands).calls)).state.finish := by
  have hdrawn := ofCommands_eq_drawn commands (some s.resolution) (.number s.width)
    (.number s.height) surface
  unfold drawn at hdrawn
  rw [Surface.drawAll_reached] at hdrawn
  unfold withSettings ofReader
  rw [hread]
  exact hdrawn

/-- The calls made are the opening ones and those of the commands, up to the first that is
refused. -/
theorem calls_of_ok (hread : r.commands.2 = .ok commands) :
    calls r s surface = surface.reached (opening s ++ (carried s commands).calls) := by
  unfold calls
  rw [hread]
  rfl

/-- Once a conversion has begun, nothing that its commands ask for is refused. -/
theorem fault_drawAll (hs : surface.IsWritten) (hbegun : (begun s surface).fault = none)
    (commands : List Command) :
    (surface.drawAll (opening s ++ (carried s commands).calls)).fault = none := by
  rw [fault_begun] at hbegun
  obtain ⟨-, htook⟩ := Surface.took_drawAll hs hbegun
  rw [Surface.drawAll_append, Outcome.fault_andThen hbegun]
  exact Surface.drawAll_isPlain htook.isWritten (isPlain_carried s commands)

/-- The conversion has made these calls, and the surface has taken them. -/
structure Made (r : Reader) (s : Settings) (surface : Surface) (cs : List Call) : Prop where
  calls : calls r s surface = cs
  took : Took cs surface (withSettings r s surface).surface

/-- A conversion that has begun ends with the fault of its commands, and has made their calls. -/
theorem made_of_fault (hs : surface.IsWritten) (hread : r.commands.2 = .ok commands)
    (hbegun : (begun s surface).fault = none) {x : Fault}
    (hx : (carried s commands).fault = some x) :
    (withSettings r s surface).result = .error x ∧
      Made r s surface (opening s ++ (carried s commands).calls) ∧
      (withSettings r s surface).surface =
        ((begun s surface).state.surface.drawAll (carried s commands).calls).state := by
  have hall := fault_drawAll hs hbegun commands
  obtain ⟨hreached, htook⟩ := Surface.took_drawAll hs hall
  have hdrawn := withSettings_of_ok s surface hread
  simp only [hall, hx, Option.none_or] at hdrawn
  obtain ⟨hsurface, hresult⟩ := Prod.mk.inj hdrawn
  rw [← hsurface] at htook
  refine ⟨hresult, ⟨(calls_of_ok hread).trans hreached, htook⟩, ?_⟩
  rw [fault_begun] at hbegun
  rw [hsurface, surface_begun, Surface.drawAll_append, Outcome.andThen_of_none hbegun]

/-- The fault lies in commands that could be read. -/
inductive OfCommands : Fault → Prop where
  | envelope (fault : EnvelopeFault) : OfCommands (.envelope fault)
  | argument (fault : ArgumentFault) : OfCommands (.argument fault)

/-- A conversion that ends with such a fault has begun, and has come upon it. -/
theorem fault_of_result (hs : surface.IsWritten) (hread : r.commands.2 = .ok commands) {x : Fault}
    (hx : OfCommands x) (h : (withSettings r s surface).result = .error x) :
    (begun s surface).fault = none ∧ (carried s commands).fault = some x := by
  have hbegun : (begun s surface).fault = none := by
    -- a page that is refused is refused for a value
    by_contra hne
    obtain ⟨y, hy⟩ := Option.ne_none_iff_exists'.1 hne
    rw [fault_begun] at hy
    obtain ⟨v, rfl⟩ := Surface.drawAll_fault hs hy
    have hdrawn := withSettings_of_ok s surface hread
    rw [Surface.drawAll_append, Outcome.andThen_of_some hy, hy] at hdrawn
    have hresult : (withSettings r s surface).result = .error (.value v) := congrArg Prod.snd hdrawn
    rw [hresult] at h
    cases h
    cases hx
  refine ⟨hbegun, ?_⟩
  -- nothing is refused any more, so the fault is that of the commands, or one of finishing
  have hall := fault_drawAll hs hbegun commands
  cases hfault : (carried s commands).fault with
  | some y =>
    rw [(made_of_fault hs hread hbegun hfault).1] at h
    cases h
    rfl
  | none =>
    have hdrawn := withSettings_of_ok s surface hread
    simp only [hall, hfault, Option.none_or] at hdrawn
    have hresult : (withSettings r s surface).result = _ := congrArg Prod.snd hdrawn
    rw [hresult] at h
    obtain ⟨-, htook⟩ := Surface.took_drawAll hs hall
    obtain rfl := Surface.finish_error htook.isWritten h
    cases hx

/-! ## Where it stops -/

/-- The envelope is at fault exactly when the commands have no interior. -/
theorem fault_carried_envelope {fault : EnvelopeFault} :
    (carried s commands).fault = some (.envelope fault) ↔
      Label.interior commands = .error fault := by
  unfold carried Label.enveloped
  cases Label.interior commands with
  | error other => simp
  | ok inner =>
    refine iff_of_false (fun h => ?_) (fun h => nomatch h)
    -- commands stop for arguments and values only
    nomatch (Label.regular_steps inner _).fault _ h

/-- An argument is at fault exactly when a command inside stops for it and those before it went
through. -/
theorem fault_carried_argument {e : ArgumentFault} :
    (carried s commands).fault = some (.argument e) ↔
      ∃ before c after, Label.interior commands = .ok (before ++ c :: after) ∧
        ((Label.first (some s.resolution)).steps before).fault = none ∧
        (((Label.first (some s.resolution)).steps before).label.step c.name c.args).fault =
          some (.argument e) := by
  unfold carried Label.enveloped
  cases Label.interior commands with
  | error other =>
    refine iff_of_false (fun h => nomatch h) ?_
    rintro ⟨_, _, _, h, -⟩
    cases h
  | ok inner =>
    constructor
    · -- the first command that fails is the one that is at fault
      intro h
      obtain ⟨before, c, after, rfl, hnone, hfault⟩ := Label.exists_of_fault h
      exact ⟨before, c, after, rfl, hnone, hfault⟩
    · rintro ⟨before, c, after, h, hnone, hfault⟩
      cases h
      exact (Label.steps_of_argument hnone hfault).1

/-- The label stops at a command: the conversion begins, the commands before go through when they are
dispatched one by one, and this one is refused for an argument. -/
structure StopsAt (r : Reader) (s : Settings) (surface : Surface) (before : List Command)
    (c : Command) (e : ArgumentFault) : Prop where
  read : ∃ commands after, r.commands.2 = .ok commands ∧
    Label.interior commands = .ok (before ++ c :: after)
  starts : (begun s surface).fault = none
  passed : ∀ x ∈ Press.faults before (begun s surface).state, x = none
  refused : (((begun s surface).state.after before).dispatch c.name c.args).fault =
    some (.argument e)

theorem isWritten_begun (hs : surface.IsWritten) (hbegun : (begun s surface).fault = none) :
    (begun s surface).state.surface.IsWritten := by
  rw [fault_begun] at hbegun
  rw [surface_begun]
  exact (Surface.took_drawAll hs hbegun).2.isWritten

/-- What the commands before leave is what a label that stops leaves: the command at which it stops
adds nothing. -/
theorem StopsAt.made {before : List Command} {c : Command} {e : ArgumentFault}
    (hs : surface.IsWritten) (h : StopsAt r s surface before c e) :
    (withSettings r s surface).result = .error (.argument e) ∧
      Made r s surface (opening s ++ (begun s surface).state.calls before) ∧
      (withSettings r s surface).surface = ((begun s surface).state.after before).surface ∧
      (((begun s surface).state.after before).dispatch c.name c.args).state.surface =
        ((begun s surface).state.after before).surface := by
  obtain ⟨⟨commands, after, hread, hinterior⟩, hbegun, hpassed, hrefused⟩ := h
  have hwritten := isWritten_begun hs hbegun
  obtain ⟨hnone, hfault⟩ := (Press.stops_written hwritten before c _).1 ⟨hpassed, hrefused⟩
  obtain ⟨hlabel, hcalls, hsurface, -⟩ := (Press.after_written hwritten before).2 hnone
  -- the arguments of the command at which the label stops are checked before it makes a call
  have hquiet : (((begun s surface).state.after before).label.step c.name c.args).calls = [] := by
    rw [hlabel]
    exact Label.checked_step _ _ _ e hfault
  rw [label_begun hbegun] at hnone hfault hcalls hsurface
  have hcarried : (carried s commands).calls =
      ((Label.first (some s.resolution)).steps before).calls := by
    unfold carried
    rw [Label.enveloped_of_interior hinterior]
    exact (Label.steps_of_argument hnone hfault).2
  obtain ⟨hresult, hmade, hend⟩ := made_of_fault hs hread hbegun
    (fault_carried_argument.2 ⟨before, c, after, hinterior, hnone, hfault⟩)
  rw [hcarried] at hmade hend
  refine ⟨hresult, hcalls ▸ hmade, hend.trans hsurface.symm, ?_⟩
  unfold Press.dispatch
  rw [Press.surface_take, hquiet]
  rfl

/-- Every way in which a conversion stops for a label. -/
structure StopsCleanly (r : Reader) (s : Settings) (surface : Surface) : Prop where
  /-- A conversion begins if the sides of its page are floating-point numbers. -/
  starts : (begun s surface).fault = none ↔
    ∃ x y, s.width.toFloat = .ok x ∧ s.height.toFloat = .ok y
  /-- Nothing is drawn of a label that cannot be read. -/
  unread : ∀ x, r.commands.2 = .error x → (withSettings r s surface).result = .error x ∧
    calls r s surface = [] ∧ (withSettings r s surface).surface = surface
  envelope : ∀ fault, (withSettings r s surface).result = .error (.envelope fault) ↔
    (begun s surface).fault = none ∧
      ∃ commands, r.commands.2 = .ok commands ∧ Label.interior commands = .error fault
  /-- Only the page is begun of a label without an envelope. -/
  made_envelope : ∀ fault, (withSettings r s surface).result = .error (.envelope fault) →
    Made r s surface (opening s)
  argument : ∀ e, (withSettings r s surface).result = .error (.argument e) ↔
    ∃ before c, StopsAt r s surface before c e
  /-- The command at which a label stops adds nothing to what the commands before leave. -/
  made_argument : ∀ before c e, StopsAt r s surface before c e →
    Made r s surface (opening s ++ (begun s surface).state.calls before) ∧
      (withSettings r s surface).surface = ((begun s surface).state.after before).surface ∧
      (((begun s surface).state.after before).dispatch c.name c.args).state.surface =
        ((begun s surface).state.after before).surface

/-- A label is not read for a fault of the input, and then nothing else happens. -/
theorem withSettings_of_error (s : Settings) (surface : Surface) {x : Fault}
    (h : r.commands.2 = .error x) :
    (∃ fault, x = .input fault) ∧ (withSettings r s surface).result = .error x ∧
      calls r s surface = [] ∧ (withSettings r s surface).surface = surface := by
  refine ⟨?_, ?_⟩
  · unfold Reader.commands at h
    split at h <;> cases h
    exact ⟨_, rfl⟩
  · unfold withSettings ofReader calls
    rw [h]
    exact ⟨rfl, rfl, rfl⟩

/-- A fault of the commands is one of those that were read and carried out. -/
theorem carried_of_result (hs : surface.IsWritten) {x : Fault} (hx : OfCommands x)
    (h : (withSettings r s surface).result = .error x) :
    (begun s surface).fault = none ∧
      ∃ commands, r.commands.2 = .ok commands ∧ (carried s commands).fault = some x := by
  cases hread : r.commands.2 with
  | error y =>
    obtain ⟨⟨fault, rfl⟩, hresult, -⟩ := withSettings_of_error s surface hread
    rw [hresult] at h
    cases h
    cases hx
  | ok commands =>
    obtain ⟨hbegun, hfault⟩ := fault_of_result hs hread hx h
    exact ⟨hbegun, commands, rfl, hfault⟩

/-- A conversion on a recording or a trace that fails leaves the calls of what came before, and no
others: none if the commands cannot be read, the two of a new label if the envelope is not in order,
and these and those of the commands before if one is refused for an argument. -/
theorem stopsCleanly (r : Reader) (s : Settings) (hs : surface.IsWritten) :
    StopsCleanly r s surface where
  starts := fault_begun_iff hs
  unread x hread := (withSettings_of_error s surface hread).2
  envelope fault := by
    constructor
    · intro h
      obtain ⟨hbegun, commands, hread, hfault⟩ := carried_of_result hs (.envelope fault) h
      exact ⟨hbegun, commands, hread, fault_carried_envelope.1 hfault⟩
    · rintro ⟨hbegun, commands, hread, hinterior⟩
      exact (made_of_fault hs hread hbegun (fault_carried_envelope.2 hinterior)).1
  made_envelope fault h := by
    obtain ⟨hbegun, commands, hread, hfault⟩ := carried_of_result hs (.envelope fault) h
    obtain ⟨-, hmade, -⟩ := made_of_fault hs hread hbegun hfault
    -- without an interior no command is looked at
    have hnone : (carried s commands).calls = [] := by
      unfold carried Label.enveloped
      rw [fault_carried_envelope.1 hfault]
      rfl
    rw [hnone, List.append_nil] at hmade
    exact hmade
  argument e := by
    constructor
    · intro h
      obtain ⟨hbegun, commands, hread, hfault⟩ := carried_of_result hs (.argument e) h
      obtain ⟨before, c, after, hinterior, hsteps⟩ := fault_carried_argument.1 hfault
      rw [← label_begun hbegun] at hsteps
      obtain ⟨hpassed, hrefused⟩ :=
        (Press.stops_written (isWritten_begun hs hbegun) before c _).2 hsteps
      exact ⟨before, c, ⟨commands, after, hread, hinterior⟩, hbegun, hpassed, hrefused⟩
    · rintro ⟨before, c, h⟩
      exact (h.made hs).1
  made_argument before c e h := (h.made hs).2

/-- A label with a box whose width is less than its line, on a trace: it stops at the box, behind the
origin and the data of a field. The trace has been asked for the page, its font, the move and the
text. -/
theorem stopsCleanly_box :
    let r := Reader.ofUtf8 "^XA^FO8,16^FDa^GB1,9,2^FS^XZ"
    let before : List Command :=
      [⟨some (.char '^'), "FO", ["8", "16"]⟩, ⟨some (.char '^'), "FD", ["a"]⟩]
    let box : Command := ⟨some (.char '^'), "GB", ["1", "9", "2"]⟩
    let e : ArgumentFault := ⟨"GB", "w", .outside (.int 1) (.fromThickness 2 Label.maxDots)⟩
    (Surface.trace {}).IsWritten ∧ StopsAt r {} (.trace {}) before box e ∧
      (withSettings r {} (.trace {})).result = .error (.argument e) ∧
      Made r {} (.trace {})
        (opening {} ++ [.moveCursor (.float 1.0) (.float 2.0), .drawText (.text "a")]) := by
  intro r before box e
  have hread : r.commands.2 = .ok ([⟨some (.char '^'), "XA", []⟩] ++ before ++ [box,
      ⟨some (.char '^'), "FS", []⟩, ⟨some (.char '^'), "XZ", []⟩]) := by
    have hscript : Script.commands "^XA^FO8,16^FDa^GB1,9,2^FS^XZ".toList =
        .ok ([⟨some (.char '^'), "XA", []⟩] ++ before ++ [box, ⟨some (.char '^'), "FS", []⟩,
          ⟨some (.char '^'), "XZ", []⟩]) := by
      decide
    rw [Reader.commands_ofUtf8, hscript]
    rfl
  have hbegun : (begun {} (.trace {})).fault = none := Option.isNone_iff_eq_none.1 (by decide)
  have hpassed : ∀ x ∈ Press.faults before (begun {} (.trace {})).state, x = none := by
    have hall : (Press.faults before (begun {} (.trace {})).state).all (·.isNone) = true := by
      decide +kernel
    exact fun x hx => Option.isNone_iff_eq_none.1 (List.all_eq_true.1 hall x hx)
  have hrefused : (((begun {} (.trace {})).state.after before).dispatch box.name box.args).fault =
      some (.argument e) := rfl
  -- what the two commands in front of the box draw is computed
  have hcalls : (begun {} (.trace {})).state.calls before =
      [.moveCursor (.float 1.0) (.float 2.0), .drawText (.text "a")] := rfl
  have hwritten : (Surface.trace {}).IsWritten := trivial
  have hstops : StopsAt r {} (.trace {}) before box e :=
    ⟨⟨_, _, hread, rfl⟩, hbegun, hpassed, hrefused⟩
  have hclean := stopsCleanly r {} hwritten
  refine ⟨hwritten, hstops, (hclean.argument e).2 ⟨before, box, hstops⟩, ?_⟩
  exact hcalls ▸ (hclean.made_argument before box e hstops).1

end Conversion

end LabelPress
