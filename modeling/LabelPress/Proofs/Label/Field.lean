import LabelPress.Proofs.Surface.Recorded
import Mathlib.Data.List.Induction
import Mathlib.Data.List.TakeWhile

/-!
# What fields mean

The commands of a label are cut after every end of a field, and each field is read as a whole: what
it prints as text, what it shows as a barcode, and how that barcode is drawn. The label knows none
of this as a whole. It keeps a few values that its commands change one by one.

* `Field.memory` says what these values are after the commands of some fields and of part of
  another, and `Field.step_memory` that every command keeps to it;
* `Field.steps_memory` is the same for all commands of a field, with the texts that they draw;
* `Recording.fields_recorded` puts fields together: what a recording holds for each of them.
-/

namespace LabelPress

/-- Whether a command is of a verb. -/
def Command.does (v : Verb) (c : Command) : Bool :=
  Verb.ofName? c.name == some v

/-- What a label remembers for its barcodes. -/
structure Memory where
  resolution : Option Number
  pending : Bool
  content : Text
  barcodeArgs : List Text
  moduleWidth : Int
  wideRatio : Float
  barcodeHeight : Int

/-- What a label remembers of the commands of its field, and of those for all fields. -/
def Label.memory (l : Label) : Memory where
  resolution := l.resolution
  pending := l.isPending
  content := l.content
  barcodeArgs := l.barcodeArgs
  moduleWidth := l.moduleWidth
  wideRatio := l.wideRatio
  barcodeHeight := l.barcodeHeight

namespace Field

open Argument (get?)

/-! ## Fields as a whole -/

/-- The commands of each field; those behind the last end of a field are an unfinished one. -/
def fields (inner : List Command) : List (List Command) :=
  inner.splitOnP (·.does .fieldEnd)

/-- What was given last, or something usual if nothing was. -/
def lastGiven {A : Type} (given : Command → Option A) (usual : A) (cs : List Command) : A :=
  (cs.filterMap given).getLast?.getD usual

/-- What the arguments of a verb give. -/
def given {A : Type} (v : Verb) (value : List Text → Option A) (c : Command) : Option A :=
  if c.does v then value c.args else none

/-- The texts of a field: its data in front of the first barcode. -/
def texts (field : List Command) : List Text :=
  (field.takeWhile (!·.does .barcode)).filterMap (given .fieldData (some ∘ Command.joinArgs))

/-- What the barcode of a field shows: its last data behind the first barcode. -/
def content (field : List Command) : Text :=
  lastGiven (given .fieldData (some ∘ Command.joinArgs)) .empty
    (field.dropWhile (!·.does .barcode))

/-- The arguments of the last barcode of a field, if it has one. -/
def barcodeArgs? (field : List Command) : Option (List Text) :=
  (field.filterMap (given .barcode some)).getLast?

/-- The width of the narrowest bar in force after commands, in dots. -/
def moduleWidth (before : List Command) : Int :=
  lastGiven (given .barcodeDefaults fun args => (get? args 0).bind Decimal.integer?) 2 before

/-- The ratio of wide to narrow bars in force after commands. -/
def wideRatio (before : List Command) : Float :=
  lastGiven (given .barcodeDefaults fun args => (get? args 1).bind Decimal.number?) 3.0 before

/-- The height of barcodes in force after commands, in dots. -/
def barcodeHeight (before : List Command) : Int :=
  lastGiven (given .barcodeDefaults fun args => (get? args 2).bind Decimal.integer?) 10 before

/-- An argument without white space around it and in capitals, or a letter if it is omitted. -/
def letter (args : List Text) (i : Nat) (usual : Text) : Text :=
  ((get? args i).getD usual).upper

/-- How a barcode with these arguments is drawn behind commands. -/
structure IsFormatting (resolution : Option Number) (before : List Command) (args : List Text)
    (f : Formatting) : Prop where
  symbology : f.symbology = .string "code128"
  raw : f.raw = .array (args.map .string)
  orientation : f.orientation = .string (letter args 0 "N")
  printAbove : f.printAbove = .bool (letter args 2 "N" == "Y")
  printBelow : f.printBelow = .bool (letter args 3 "Y" == "Y")
  checkDigit : f.checkDigit = .bool (letter args 4 "N" == "Y")
  mode : f.mode = .string (letter args 5 "N")
  /-- The height of the barcode itself goes before the one in force. -/
  height : ∃ r dots x, resolution = some r ∧
    (get? args 1 = none ∧ dots = barcodeHeight before ∨
      (get? args 1).bind Decimal.integer? = some dots) ∧
    Number.dividedBy (.int dots) r = .ok x ∧ f.height = .float x
  moduleWidth : ∃ r x, resolution = some r ∧
    Number.dividedBy (.int (moduleWidth before)) r = .ok x ∧ f.moduleWidth = .float x
  ratio : f.ratio = .float (wideRatio before)

/-! ## One command more -/

variable {field : List Command} {c : Command}

/-- The last command decides if it gives anything, and otherwise those before it do. -/
theorem lastGiven_append {A : Type} (g : Command → Option A) (usual : A) (cs : List Command)
    (c : Command) : lastGiven g usual (cs ++ [c]) = (g c).getD (lastGiven g usual cs) := by
  unfold lastGiven
  rw [List.filterMap_append]
  cases h : g c <;> simp [h]

/-- A command is of a verb exactly when its name is looked up as that verb. -/
theorem does_iff {v : Verb} : c.does v = true ↔ Verb.ofName? c.name = some v := by
  simp [Command.does]

/-- A command of the verb gives what its arguments give. -/
theorem given_of_does {A : Type} {v : Verb} (h : c.does v = true) (value : List Text → Option A) :
    given v value c = value c.args :=
  if_pos h

/-- A command of another verb gives nothing. -/
theorem given_of_not_does {A : Type} {v : Verb} (h : c.does v = false)
    (value : List Text → Option A) : given v value c = none :=
  if_neg (by simp [h])

/-- A command is of one verb at most. -/
theorem not_does {v w : Verb} (h : c.does v = true) (hne : v ≠ w) : c.does w = false := by
  rw [← Bool.not_eq_true, does_iff, does_iff.1 h]
  simpa using hne

/-- A further command stands before the first barcode only if there is none and it asks for none
itself. -/
theorem takeWhile_append (field : List Command) (c : Command) :
    (field ++ [c]).takeWhile (!·.does .barcode) =
      field.takeWhile (!·.does .barcode) ++
        if field.any (·.does .barcode) || c.does .barcode then [] else [c] := by
  induction field with
  | nil => cases h : c.does .barcode <;> simp [h]
  | cons d field ih => cases h : d.does .barcode <;> simp [h, ih]

/-- Otherwise it stands behind it. -/
theorem dropWhile_append (field : List Command) (c : Command) :
    (field ++ [c]).dropWhile (!·.does .barcode) =
      field.dropWhile (!·.does .barcode) ++
        if field.any (·.does .barcode) || c.does .barcode then [c] else [] := by
  induction field with
  | nil => cases h : c.does .barcode <;> simp [h]
  | cons d field ih => cases h : d.does .barcode <;> simp [h, ih]

/-- Data in front of the first barcode are one text more. -/
theorem texts_append (field : List Command) (c : Command) :
    texts (field ++ [c]) =
      texts field ++
        if c.does .fieldData && !field.any (·.does .barcode) then [Command.joinArgs c.args] else [] := by
  unfold texts
  rw [takeWhile_append, List.filterMap_append]
  congr 1
  cases hdata : c.does .fieldData with
  | true =>
    have hbarcode := not_does hdata (w := .barcode) (by decide)
    cases field.any (·.does .barcode) <;> simp [hbarcode, given, hdata]
  | false =>
    cases field.any (·.does .barcode) <;> cases c.does .barcode <;> simp [given, hdata]

/-- Data behind a barcode take the place of others. -/
theorem content_append (field : List Command) (c : Command) :
    content (field ++ [c]) =
      if c.does .fieldData && field.any (·.does .barcode) then Command.joinArgs c.args
      else content field := by
  unfold content
  rw [dropWhile_append]
  -- only data change the content, and only behind a barcode
  cases hdata : c.does .fieldData with
  | true =>
    have hbarcode := not_does hdata (w := .barcode) (by decide)
    cases field.any (·.does .barcode) with
    | true => simp [lastGiven_append, given, hdata]
    | false => simp [hbarcode]
  | false =>
    have hnone := given_of_not_does hdata (some ∘ Command.joinArgs)
    split
    · rw [lastGiven_append, hnone]
      rfl
    · rw [List.append_nil]
      rfl

/-- A further barcode takes the place of the one asked for before. -/
theorem barcodeArgs?_append (field : List Command) (c : Command) :
    barcodeArgs? (field ++ [c]) = if c.does .barcode then some c.args else barcodeArgs? field := by
  unfold barcodeArgs?
  rw [List.filterMap_append]
  cases h : c.does .barcode <;> simp [given, h]

/-! ## What a label remembers -/

/-- What is to be remembered after the commands of earlier fields and some of another field. -/
def memory (resolution : Option Number) (past field : List Command) : Memory where
  resolution := resolution
  pending := field.any (·.does .barcode)
  content := content field
  barcodeArgs := (barcodeArgs? field).getD []
  moduleWidth := moduleWidth (past ++ field)
  wideRatio := wideRatio (past ++ field)
  barcodeHeight := barcodeHeight (past ++ field)

variable {resolution : Option Number} {past : List Command} {l m : Label}

/-- What a field is remembered by changes with a further command in the parts that the command is
about. -/
theorem memory_append (past field : List Command) (c : Command) :
    memory resolution past (field ++ [c]) = {
      resolution := resolution
      pending := field.any (·.does .barcode) || c.does .barcode
      content := content (field ++ [c])
      barcodeArgs := (barcodeArgs? (field ++ [c])).getD []
      moduleWidth := (given .barcodeDefaults
        (fun args => (get? args 0).bind Decimal.integer?) c).getD (moduleWidth (past ++ field))
      wideRatio := (given .barcodeDefaults
        (fun args => (get? args 1).bind Decimal.number?) c).getD (wideRatio (past ++ field))
      barcodeHeight := (given .barcodeDefaults
        (fun args => (get? args 2).bind Decimal.integer?) c).getD
          (barcodeHeight (past ++ field)) } := by
  unfold memory moduleWidth wideRatio barcodeHeight
  rw [← List.append_assoc, lastGiven_append, lastGiven_append, lastGiven_append]
  simp

/-- A command that is no barcode, no data and no setting of barcodes is not remembered. -/
theorem memory_append_other (hbarcode : c.does .barcode = false)
    (hdata : c.does .fieldData = false) (hdefaults : c.does .barcodeDefaults = false) :
    memory resolution past (field ++ [c]) = memory resolution past field := by
  rw [memory_append, content_append, barcodeArgs?_append]
  simp [hbarcode, hdata, given_of_not_does hdefaults, memory]

/-- A call that is neither a text nor a barcode. -/
def IsSilent (c : Call) : Prop :=
  c.primitive ≠ .drawText ∧ c.primitive ≠ .drawBarcode

/-- A step that remembers what was remembered before, and draws neither text nor barcode. -/
abbrev Forgets (l : Label) (s : Step) : Prop :=
  s.Keeps (fun m => m.memory = l.memory) IsSilent fun _ => True

theorem isSilent_moveCursor (x y : Json) : IsSilent (.moveCursor x y) := by
  simp [IsSilent, Call.primitive]

theorem isSilent_setFontSize (n : Json) : IsSilent (.setFontSize n) := by
  simp [IsSilent, Call.primitive]

theorem forgets_goTo {x y : Int} (h : m.memory = l.memory) : Forgets l (Label.goTo x y m) :=
  .withValue (fun _ _ => trivial) fun (_, _) _ => .call h (isSilent_moveCursor _ _)

theorem forgets_font (args : List Text) (l : Label) : Forgets l (Label.font args l) :=
  .withArgument (fun _ _ => trivial) fun _ _ =>
    .withValue (fun _ _ => trivial) fun _ _ => .call rfl (isSilent_setFontSize _)

/-- An origin opens a field on an idle label, which is not remembered, and moves the cursor. -/
theorem forgets_fieldOrigin (args : List Text) (l : Label) :
    Forgets l (Label.fieldOrigin args l) := by
  refine .withArgument (fun _ _ => trivial) fun (x, y) _ => ?_
  apply Step.Keeps.andThen (J := fun m => m.memory = l.memory) (forgets_goTo rfl)
  intro m hm
  split
  · next hidle =>
    -- a field that is opened has no barcode yet
    have hpending : ({ m with state := .fieldOpen } : Label).isPending = m.isPending := by
      unfold Label.isPending
      rw [hidle]
      rfl
    apply Step.Keeps.done
    rw [← hm]
    unfold Label.memory
    rw [hpending]
  · exact .done hm

theorem forgets_box (args : List Text) (l : Label) : Forgets l (Label.box args l) :=
  .withArgument (fun _ _ => trivial) fun _ _ =>
    .withValue (fun _ _ => trivial) fun (_, _, _) _ =>
      .call rfl (by simp [IsSilent, Call.primitive])

theorem forgets_home (args : List Text) (l : Label) : Forgets l (Label.home args l) :=
  .withArgument (fun _ _ => trivial) fun (_, _) _ =>
    .withValue (fun _ _ => trivial) fun (_, _) _ => .done rfl

/-- Commands of all other verbs, and those of none, forget nothing. -/
theorem forgets_step (hbarcode : c.does .barcode = false) (hdata : c.does .fieldData = false)
    (hdefaults : c.does .barcodeDefaults = false) (hend : c.does .fieldEnd = false) :
    Forgets l (l.step c.name c.args) := by
  -- a command of one verb is of no other
  have hother {v w : Verb} (hv : Verb.ofName? c.name = some v) (hw : c.does w = false) :
      v ≠ w := by
    rintro rfl
    rw [does_iff.2 hv] at hw
    cases hw
  unfold Label.step
  split
  · next v hv =>
    cases v with
    | font => exact forgets_font c.args l
    | namedFont => exact .note rfl
    | fieldOrigin => exact forgets_fieldOrigin c.args l
    | box => exact forgets_box c.args l
    | home => exact forgets_home c.args l
    | barcode => exact absurd rfl (hother hv hbarcode)
    | barcodeDefaults => exact absurd rfl (hother hv hdefaults)
    | fieldData => exact absurd rfl (hother hv hdata)
    | fieldEnd => exact absurd rfl (hother hv hend)
  · exact .note rfl

/-! ## Commands inside a field -/

/-- Calls that draw these texts, in this order, and no barcode. -/
structure Draws (ts : List Text) (calls : List Call) : Prop where
  texts : calls.filter (·.primitive == .drawText) = ts.map fun t => .drawText (.text t)
  barcodes : ∀ c ∈ calls, c.primitive ≠ .drawBarcode

/-- What is drawn in a row shows the texts of both parts, in this order. -/
theorem Draws.append {ts us : List Text} {cs ds : List Call} (hc : Draws ts cs)
    (hd : Draws us ds) : Draws (ts ++ us) (cs ++ ds) where
  texts := by rw [List.filter_append, hc.texts, hd.texts, List.map_append]
  barcodes c h := by
    rcases List.mem_append.1 h with h | h
    · exact hc.barcodes c h
    · exact hd.barcodes c h

theorem draws_nil : Draws [] [] := ⟨rfl, by simp⟩

/-- Silent calls show nothing. -/
theorem draws_of_silent {calls : List Call} (h : ∀ c ∈ calls, IsSilent c) : Draws [] calls where
  texts := by
    rw [List.map_nil, List.filter_eq_nil_iff]
    intro c hc
    simpa using (h c hc).1
  barcodes c hc := (h c hc).2

theorem step_of_does {v : Verb} (h : c.does v = true) (l : Label) :
    l.step c.name c.args = l.perform v c.args := by
  unfold Label.step
  rw [does_iff.1 h]

/-- What a step of one command does to the memory and to the surface. -/
def Remembers (resolution : Option Number) (past field : List Command) (c : Command)
    (s : Step) : Prop :=
  s.label.memory = memory resolution past (field ++ [c]) ∧
    Draws (if c.does .fieldData && !field.any (·.does .barcode) then [Command.joinArgs c.args]
      else []) s.calls

theorem memory_barcode (args : List Text) (l : Label) :
    ({ l with state := .barcodePending, barcodeArgs := args } : Label).memory =
      { l.memory with pending := true, barcodeArgs := args } := rfl

theorem memory_content (t : Text) (l : Label) :
    ({ l with content := t } : Label).memory = { l.memory with content := t } := rfl

/-- A barcode that is accepted is remembered with its arguments. -/
theorem step_barcode (hc : c.does .barcode = true)
    (hl : l.memory = memory resolution past field) (h : (l.step c.name c.args).fault = none) :
    Remembers resolution past field c (l.step c.name c.args) := by
  have hdata := not_does hc (w := .fieldData) (by decide)
  have hdefaults := not_does hc (w := .barcodeDefaults) (by decide)
  rw [step_of_does hc] at h ⊢
  obtain ⟨_, -, hstep⟩ := Step.withArgument_eq_of_none h
  change l.perform .barcode c.args = _ at hstep
  rw [hstep]
  refine ⟨?_, ?_⟩
  · rw [Step.label_done, memory_barcode, hl, memory_append, content_append, barcodeArgs?_append]
    simp [memory, hc, hdata, given_of_not_does hdefaults]
  · rw [hdata]
    exact draws_nil

/-- Data are remembered for a barcode that waits, and are drawn as a text otherwise. -/
theorem step_fieldData (hc : c.does .fieldData = true)
    (hl : l.memory = memory resolution past field) :
    Remembers resolution past field c (l.step c.name c.args) := by
  have hbarcode := not_does hc (w := .barcode) (by decide)
  have hdefaults := not_does hc (w := .barcodeDefaults) (by decide)
  have hpending : l.isPending = field.any (·.does .barcode) := congrArg Memory.pending hl
  rw [step_of_does hc]
  unfold Remembers Label.perform Label.fieldData
  rw [hpending, memory_append, content_append, barcodeArgs?_append]
  -- behind a barcode the data are kept for it, and in front of one they are drawn
  cases hany : field.any (·.does .barcode) with
  | true =>
    refine ⟨?_, ?_⟩
    · rw [if_pos rfl, Step.label_done, memory_content, hl]
      simp [memory, hc, hany, hbarcode, given_of_not_does hdefaults]
    · rw [hc]
      exact draws_nil
  | false =>
    refine ⟨?_, ?_⟩
    · rw [if_neg Bool.false_ne_true, Step.label_call, hl]
      simp [memory, hany, hbarcode, given_of_not_does hdefaults]
    · rw [hc]
      exact ⟨rfl, by simp [Call.primitive]⟩

/-- What an argument gives is the value that it has, or the one in force. -/
theorem getD_of_integer {command name : String} {arg : Option Text} {n default low high : Int}
    (h : Argument.integer command name arg default low high = .ok n) :
    n = (arg.bind Decimal.integer?).getD default := by
  rcases Argument.integer_eq_ok h with ⟨rfl, rfl⟩ | ⟨text, rfl, htext, -⟩
  · rfl
  · rw [Option.bind_some, htext, Option.getD_some]

theorem getD_of_ratio {command name : String} {arg : Option Text} {x default : Float}
    (h : Argument.ratio command name arg default = .ok x) :
    x = (arg.bind Decimal.number?).getD default := by
  cases arg with
  | none =>
    cases h
    rfl
  | some text =>
    simp only [Argument.ratio] at h
    split at h
    · cases h
    · next y hy =>
      split at h
      · cases h
      · cases h
        rw [Option.bind_some, hy, Option.getD_some]

/-- Each of the three values is remembered if it is given, and otherwise the one before it. -/
theorem step_barcodeDefaults (hc : c.does .barcodeDefaults = true)
    (hl : l.memory = memory resolution past field) (h : (l.step c.name c.args).fault = none) :
    Remembers resolution past field c (l.step c.name c.args) := by
  have hdata := not_does hc (w := .fieldData) (by decide)
  have hbarcode := not_does hc (w := .barcode) (by decide)
  rw [step_of_does hc] at h ⊢
  -- the three arguments are read one after another, and none was refused
  obtain ⟨w, hw, hstep⟩ := Step.withArgument_eq_of_none h
  rw [show l.perform .barcodeDefaults c.args = _ from hstep] at h ⊢
  obtain ⟨r, hr, hstep⟩ := Step.withArgument_eq_of_none h
  rw [hstep] at h ⊢
  obtain ⟨b, hb, hstep⟩ := Step.withArgument_eq_of_none h
  rw [hstep]
  have hmemory : ({ l with moduleWidth := w, wideRatio := r, barcodeHeight := b } : Label).memory =
      { l.memory with moduleWidth := w, wideRatio := r, barcodeHeight := b } := rfl
  have hwidth : l.moduleWidth = moduleWidth (past ++ field) := congrArg Memory.moduleWidth hl
  have hratio : l.wideRatio = wideRatio (past ++ field) := congrArg Memory.wideRatio hl
  have hheight : l.barcodeHeight = barcodeHeight (past ++ field) :=
    congrArg Memory.barcodeHeight hl
  refine ⟨?_, ?_⟩
  · rw [Step.label_done, hmemory, hl, memory_append, content_append, barcodeArgs?_append,
      given_of_does hc, given_of_does hc, given_of_does hc, getD_of_integer hw, getD_of_ratio hr,
      getD_of_integer hb, hwidth, hratio, hheight]
    simp [memory, hbarcode, hdata]
  · rw [hdata]
    exact draws_nil

/-- A command that ends no field is remembered as it should be, if it goes through. -/
theorem step_memory (hend : c.does .fieldEnd = false)
    (hl : l.memory = memory resolution past field) (h : (l.step c.name c.args).fault = none) :
    Remembers resolution past field c (l.step c.name c.args) := by
  by_cases hbarcode : c.does .barcode = true
  · exact step_barcode hbarcode hl h
  by_cases hdata : c.does .fieldData = true
  · exact step_fieldData hdata hl
  by_cases hdefaults : c.does .barcodeDefaults = true
  · exact step_barcodeDefaults hdefaults hl h
  · rw [Bool.not_eq_true] at hbarcode hdata hdefaults
    have hstep := forgets_step (l := l) hbarcode hdata hdefaults hend
    refine ⟨?_, ?_⟩
    · rw [hstep.label h, hl, memory_append_other hbarcode hdata hdefaults]
    · rw [hdata]
      exact draws_of_silent hstep.calls

/-- The commands of a field, in front of its end, draw the texts of the field and no barcode. -/
theorem steps_memory (hend : ∀ c ∈ field, c.does .fieldEnd = false)
    (hl : l.memory = memory resolution past []) (h : (l.steps field).fault = none) :
    (l.steps field).label.memory = memory resolution past field ∧
      Draws (texts field) (l.steps field).calls := by
  -- induction from the end of the field, for what is remembered of a field depends on its last
  -- command
  induction field using List.reverseRecOn with
  | nil => exact ⟨hl, rfl, by simp [Label.steps]⟩
  | append_singleton field c ih =>
    rw [Label.steps_append, Step.fault_andThen_eq_none] at h
    obtain ⟨hfield, hc⟩ := h
    rw [Label.steps_singleton] at hc
    obtain ⟨hmemory, hdraws⟩ := ih (fun d hd => hend d (List.mem_append_left _ hd)) hfield
    obtain ⟨hnext, hmore⟩ :=
      step_memory (hend c (List.mem_append_right _ List.mem_cons_self)) hmemory hc
    rw [Label.steps_append, Step.label_andThen hfield, Step.calls_andThen _ hfield,
      Label.steps_singleton, texts_append]
    exact ⟨hnext, hdraws.append hmore⟩

/-! ## The end of a field -/

theorem goTo_eq_of_none {x y : Int} (h : (Label.goTo x y l).fault = none) :
    ∃ a b, Label.goTo x y l = .call (.moveCursor (.float a) (.float b)) { l with x := a, y := b } := by
  obtain ⟨⟨dx, dy⟩, -, hstep⟩ := Step.withValue_eq_of_none h
  exact ⟨_, _, hstep⟩

/-- A barcode that is drawn shows the data it waited for, in the formatting of its arguments. -/
theorem drawPending_of_none (h : (Label.drawPending l).fault = none) :
    ∃ f, l.formatting = .ok f ∧
      (Label.drawPending l).calls = [.drawBarcode (.text l.content) (.formatting f)] ∧
      (Label.drawPending l).label = { l with content := .empty, barcodeArgs := [] } := by
  obtain ⟨f, hf, hstep⟩ := Step.withValue_eq_of_none h
  have heq : Label.drawPending l = _ := hstep
  refine ⟨f, hf, ?_, ?_⟩
  · rw [heq]
    rfl
  · rw [heq]
    rfl

/-- What stands in a recording at the end of a field, before font and cursor go back. -/
inductive Closing (resolution : Option Number) (before field : List Command) : List Entry → Prop where
  | text (h : barcodeArgs? field = none) : Closing resolution before field []
  | barcode {args : List Text} {f : Formatting} (h : barcodeArgs? field = some args)
    (hf : IsFormatting resolution before args f) :
    Closing resolution before field
      [.ofPrimitive .drawBarcode [.string (content field), f.toJson]]

/-- A barcode waits if one was asked for in the field. -/
theorem any_eq_isSome (field : List Command) :
    field.any (·.does .barcode) = (barcodeArgs? field).isSome := by
  induction field using List.reverseRecOn with
  | nil => rfl
  | append_singleton field c ih =>
    rw [List.any_append, ih, barcodeArgs?_append]
    cases h : c.does .barcode <;> simp [h]

/-- A length is converted by dividing the dots by the resolution, so there is one. -/
theorem toMillimetres_eq_ok {n : Int} {x : Float} (h : l.toMillimetres (.int n) = .ok x) :
    ∃ r, l.resolution = some r ∧ Number.dividedBy (.int n) r = .ok x := by
  unfold Label.toMillimetres at h
  split at h
  · next r hr => exact ⟨r, hr, h⟩
  · cases h

/-- The formatting that a label makes is that of the barcode of the field. -/
theorem isFormatting_of_ok {args : List Text} {f : Formatting}
    (hl : l.memory = memory resolution past field) (hargs : barcodeArgs? field = some args)
    (hf : l.formatting = .ok f) : IsFormatting resolution (past ++ field) args f := by
  obtain ⟨dots, height, width, hdots, hheight, hwidth, rfl⟩ := Label.formatting_eq_ok hf
  have hresolution : l.resolution = resolution := congrArg Memory.resolution hl
  have hkept : l.barcodeArgs = args := by
    have := congrArg Memory.barcodeArgs hl
    rwa [memory, hargs] at this
  have hmodule : l.moduleWidth = moduleWidth (past ++ field) := congrArg Memory.moduleWidth hl
  have hratio : l.wideRatio = wideRatio (past ++ field) := congrArg Memory.wideRatio hl
  have hforce : l.barcodeHeight = barcodeHeight (past ++ field) :=
    congrArg Memory.barcodeHeight hl
  rw [hkept, hratio]
  obtain ⟨r, hr, hx⟩ := toMillimetres_eq_ok hheight
  obtain ⟨q, hq, hy⟩ := toMillimetres_eq_ok hwidth
  rw [hresolution] at hr hq
  refine ⟨rfl, rfl, rfl, rfl, rfl, rfl, rfl, ⟨r, dots, height, hr, ?_, hx, rfl⟩,
    ⟨q, width, hq, hmodule ▸ hy, rfl⟩, rfl⟩
  unfold Label.pendingHeight at hdots
  rw [hkept, hforce] at hdots
  -- the height is read again from the arguments, unless they have none
  cases htext : get? args 1 with
  | none =>
    simp only [htext] at hdots
    cases hdots
    exact Or.inl ⟨rfl, rfl⟩
  | some text =>
    simp only [htext] at hdots
    cases hn : Decimal.integer? text with
    | none => simp only [hn] at hdots; cases hdots
    | some n =>
      simp only [hn] at hdots
      cases hdots
      exact Or.inr hn

/-- The first part of the end of a field draws the barcode, if there is one, and forgets it. -/
theorem drawPending_memory (hl : l.memory = memory resolution past field)
    (h : (if l.isPending then Label.drawPending l else .done l).fault = none) :
    (if l.isPending then Label.drawPending l else .done l).label.memory =
        { l.memory with content := .empty, barcodeArgs := [] } ∧
      Closing resolution (past ++ field) field
        ((if l.isPending then Label.drawPending l else .done l).calls.map Call.recorded) := by
  have hpending : l.isPending = (barcodeArgs? field).isSome :=
    (congrArg Memory.pending hl).trans (any_eq_isSome field)
  have hcontent : l.content = content field := congrArg Memory.content hl
  cases hargs : barcodeArgs? field with
  | none =>
    rw [hargs, Option.isSome_none] at hpending
    rw [hpending, if_neg Bool.false_ne_true, Step.label_done, Step.calls_done]
    refine ⟨?_, .text hargs⟩
    -- without a barcode there is nothing to forget
    have hany : field.any (·.does .barcode) = false := by rw [any_eq_isSome, hargs]; rfl
    have hnothing : content field = .empty := by
      unfold content
      rw [List.dropWhile_eq_nil_iff.2 (by simpa using hany)]
      rfl
    rw [hl, memory, hargs, hnothing]
    rfl
  | some args =>
    rw [hargs, Option.isSome_some] at hpending
    rw [hpending, if_pos rfl] at h ⊢
    obtain ⟨f, hf, hcalls, hlabel⟩ := drawPending_of_none h
    rw [hcalls, hlabel, hcontent]
    exact ⟨rfl, .barcode hargs (isFormatting_of_ok hl hargs hf)⟩

/-- After a step, font and cursor go back, and no field is open. -/
theorem close_of_none {s : Step}
    (h : (((s.andThen Label.resetFont).andThen (Label.goTo 0 0)).andThen fun l =>
      .done { l with state := .idle }).fault = none) :
    s.fault = none ∧ ∃ x y,
      (((s.andThen Label.resetFont).andThen (Label.goTo 0 0)).andThen fun l =>
        .done { l with state := .idle }).calls =
          s.calls ++ [.setFontSize (.float Label.defaultFontSize),
            .moveCursor (.float x) (.float y)] ∧
      (((s.andThen Label.resetFont).andThen (Label.goTo 0 0)).andThen fun l =>
        .done { l with state := .idle }).label =
          { s.label with
            fontSize := Label.defaultFontSize, fieldFont := false, x := x, y := y, state := .idle } := by
  -- no part of the closing failed, so the parts are taken off from behind
  obtain ⟨hgone, -⟩ := Step.fault_andThen_eq_none.1 h
  obtain ⟨hreset, hgo⟩ := Step.fault_andThen_eq_none.1 hgone
  obtain ⟨hs, -⟩ := Step.fault_andThen_eq_none.1 hreset
  obtain ⟨x, y, hstep⟩ := goTo_eq_of_none hgo
  refine ⟨hs, x, y, ?_, ?_⟩
  · rw [Step.calls_andThen _ hgone, Step.calls_andThen _ hreset, Step.calls_andThen _ hs, hstep,
      List.append_assoc, List.append_assoc]
    rfl
  · rw [Step.label_andThen hgone, Step.label_andThen hreset, hstep, Step.label_andThen hs]
    rfl

/-- The end of a field draws its barcode, if it has one, and then font and cursor go back. -/
theorem step_fieldEnd (hc : c.does .fieldEnd = true)
    (hl : l.memory = memory resolution past field) (h : (l.step c.name c.args).fault = none) :
    (l.step c.name c.args).label.memory = memory resolution (past ++ field) [] ∧
      ∃ closing x y, Closing resolution (past ++ field) field closing ∧
        (l.step c.name c.args).calls.map Call.recorded =
          closing ++ [.ofPrimitive .setFontSize [.float Label.defaultFontSize],
            .ofPrimitive .moveCursor [.float x, .float y]] := by
  rw [step_of_does hc] at h ⊢
  obtain ⟨hdraw, x, y, hcalls, hlabel⟩ := close_of_none h
  obtain ⟨hmemory, hclosing⟩ := drawPending_memory hl hdraw
  have hidle (m : Label) : ({ m with
      fontSize := Label.defaultFontSize, fieldFont := false, x := x, y := y,
      state := .idle } : Label).memory = { m.memory with pending := false } := rfl
  refine ⟨?_, _, x, y, hclosing, ?_⟩
  · have hnext : (l.perform .fieldEnd c.args).label.memory = _ :=
      (congrArg Label.memory hlabel).trans (hidle _)
    rw [hnext, hmemory, hl]
    unfold memory
    rw [List.append_nil]
    rfl
  · have hall : (l.perform .fieldEnd c.args).calls = _ := hcalls
    rw [hall, List.map_append]
    rfl

/-! ## All fields -/

/-- Whether an entry is of a primitive. -/
def isOf (p : Primitive) (e : Entry) : Bool :=
  match e.name with
  | .string t => t == p.name
  | _ => false

theorem name_beq (p q : Primitive) :
    (Text.ofString p.name == Text.ofString q.name) = (p == q) := by
  cases p <;> cases q <;> decide

theorem isOf_recorded (p : Primitive) (c : Call) : isOf p c.recorded = (c.primitive == p) :=
  name_beq c.primitive p

/-- Entries that draw these texts, in this order, and no barcode. -/
structure Holds (ts : List Text) (entries : List Entry) : Prop where
  texts : entries.filter (isOf .drawText) = ts.map fun t => .ofPrimitive .drawText [.string t]
  barcodes : ∀ e ∈ entries, isOf .drawBarcode e = false

/-- In a recording, calls that show the texts are entries that show them. -/
theorem Draws.holds {ts : List Text} {calls : List Call} (h : Draws ts calls) :
    Holds ts (calls.map Call.recorded) where
  texts := by
    have hsame : isOf .drawText ∘ Call.recorded = (·.primitive == .drawText) :=
      funext fun c => isOf_recorded .drawText c
    rw [List.filter_map, hsame, h.texts, List.map_map]
    rfl
  barcodes e he := by
    obtain ⟨c, hc, rfl⟩ := List.mem_map.1 he
    rw [isOf_recorded]
    exact beq_false_of_ne (h.barcodes c hc)

/-- What a recording holds for a field, of which the commands up to its last are known; a field that
has ended has its barcode at the end. -/
inductive PartOf (resolution : Option Number) (before field : List Command) :
    Bool → List Entry → Prop where
  | unfinished {drawn : List Entry} (h : Holds (texts field) drawn) :
    PartOf resolution before field false drawn
  | finished {drawn closing : List Entry} {x y : Float} (h : Holds (texts field) drawn)
    (hclosing : Closing resolution before field closing) :
    PartOf resolution before field true
      (drawn ++ closing ++ [.ofPrimitive .setFontSize [.float Label.defaultFontSize],
        .ofPrimitive .moveCursor [.float x, .float y]])

/-- A part of a recording for each field. -/
def AllParts (resolution : Option Number) (past : List Command) (fields : List (List Command))
    (parts : List (List Entry)) : Prop :=
  parts.length = fields.length ∧
    ∀ k field part, fields[k]? = some field → parts[k]? = some part →
      PartOf resolution (past ++ (fields.take (k + 1)).flatten) field (k + 1 < fields.length) part

/-- A field that is ended is a part of its own, and the fields behind it are parts after it. -/
theorem AllParts.cons {rest : List (List Command)} {part : List Entry} {parts : List (List Entry)}
    (hne : rest ≠ []) (hpart : PartOf resolution (past ++ field) field true part)
    (h : AllParts resolution (past ++ field) rest parts) :
    AllParts resolution past (field :: rest) (part :: parts) := by
  refine ⟨by simp [h.1], ?_⟩
  intro k other piece hfield hpiece
  -- the first part is the new one, and the others have moved on by one
  cases k with
  | zero =>
    rw [List.getElem?_cons_zero, Option.some.injEq] at hfield hpiece
    subst hfield hpiece
    have hmore : 0 < rest.length := List.length_pos_iff.2 hne
    simpa [hmore] using hpart
  | succ k =>
    rw [List.getElem?_cons_succ] at hfield hpiece
    have := h.2 k other piece hfield hpiece
    simpa using this

/-- Commands leave a part for each of their fields. -/
theorem steps_fields (inner past : List Command) (l : Label)
    (hl : l.memory = memory resolution past []) (h : (l.steps inner).fault = none) :
    ∃ parts, (l.steps inner).calls.map Call.recorded = parts.flatten ∧
      AllParts resolution past (fields inner) parts := by
  -- by induction on the commands, one field at a time
  induction hn : inner.length using Nat.strongRecOn generalizing inner past l with
  | _ n ih =>
    have hfield : ∀ c ∈ inner.takeWhile (!·.does .fieldEnd), c.does .fieldEnd = false := by
      intro c hc
      simpa using List.mem_takeWhile_imp hc
    have hsplit := List.takeWhile_append_dropWhile (p := (!·.does .fieldEnd)) (l := inner)
    generalize inner.takeWhile (!·.does .fieldEnd) = field at hfield hsplit
    cases hrest : inner.dropWhile (!·.does .fieldEnd) with
    | nil =>
      rw [hrest, List.append_nil] at hsplit
      subst hsplit
      obtain ⟨-, hdraws⟩ := steps_memory hfield hl h
      have hone : fields field = [field] := List.splitOnP_eq_singleton hfield
      refine ⟨[(l.steps field).calls.map Call.recorded], by simp, ?_⟩
      rw [hone]
      refine ⟨rfl, ?_⟩
      intro k other part hother hpart
      obtain rfl : k = 0 := by
        have := (List.getElem?_eq_some_iff.1 hother).1
        simpa using this
      rw [List.getElem?_cons_zero, Option.some.injEq] at hother hpart
      subst hother hpart
      exact .unfinished hdraws.holds
    | cons c rest =>
      rw [hrest] at hsplit
      have hc : c.does .fieldEnd = true := by
        have := List.head?_dropWhile_not (!·.does .fieldEnd) inner
        rw [hrest] at this
        simpa using this
      have hless : rest.length < n := by
        rw [← hn, ← hsplit, List.length_append, List.length_cons]
        omega
      have hfields : fields inner = field :: fields rest := by
        rw [← hsplit]
        exact List.splitOnP_append_cons_of_forall_mem hfield c hc rest
      rw [← hsplit, Label.steps_append, Step.fault_andThen_eq_none, Label.steps,
        Step.fault_andThen_eq_none] at h
      obtain ⟨hbody, hend, htail⟩ := h
      obtain ⟨hmemory, hdraws⟩ := steps_memory hfield hl hbody
      obtain ⟨hnext, closing, x, y, hclosing, hcalls⟩ := step_fieldEnd hc hmemory hend
      obtain ⟨parts, hparts, hall⟩ := ih rest.length hless rest _ _ hnext htail rfl
      have hpart := PartOf.finished (x := x) (y := y) hdraws.holds hclosing
      refine ⟨_ :: parts, ?_, hfields ▸ hall.cons (List.splitOnP_ne_nil _ _) hpart⟩
      rw [← hsplit, Label.steps_append, Step.calls_andThen _ hbody, Label.steps,
        Step.calls_andThen _ hend, List.map_append, List.map_append, hcalls, hparts,
        List.flatten_cons, List.append_assoc, List.append_assoc, List.append_assoc]

end Field

namespace Recording

/-- A label that goes through on a recording leaves a part for each of its fields. A field prints
the data in front of its first barcode; at its end it draws one barcode, if there is one, with the
last data behind the first barcode, the arguments of the last, and what is set for all barcodes by
then. A field that does not end draws none. -/
theorem fields_recorded {resolution : Option Number} {width height : Json}
    {commands : List Command} {r : Recording}
    (h : ((Press.start resolution width height (.recording r)).andThen
      (Press.run commands)).fault = none) :
    ∃ inner x y s parts, Label.interior commands = .ok inner ∧
      ((Press.start resolution width height (.recording r)).andThen
        (Press.run commands)).state.surface = .recording s ∧
      s.entries.toList = r.entries.toList ++
        [.ofPrimitive .createDocument [.float x, .float y],
          .ofPrimitive .setFontSize [.float Label.defaultFontSize]] ++ parts.flatten ∧
      Field.AllParts resolution [] (Field.fields inner) parts := by
  obtain ⟨inner, x, y, s, hinner, -, -, hsteps, hsurface, hextends⟩ := of_run h
  have hfirst : (Label.first resolution).memory = Field.memory resolution [] [] := rfl
  -- the fields begin with nothing remembered
  obtain ⟨parts, hparts, hall⟩ := Field.steps_fields inner [] _ hfirst hsteps
  refine ⟨inner, x, y, s, parts, hinner, hsurface, ?_, hall⟩
  rw [hextends.entries, List.map_cons, List.map_cons, hparts, List.append_assoc]
  rfl

/-- A field with a text, a barcode whose data and settings come later, and a field without an
end. -/
theorem fields_recorded_label :
    ∃ s parts,
      ((Press.start (some (.int 8)) (.int 100) (.int 50) (.recording {})).andThen
        (Press.run (List.map Command.parse
          ["^XA", "^FDa,b", "^BCN,50", "^FDc", "^BY3", "^FS", "^FDd", "^XZ"]))).state.surface =
            .recording s ∧
      s.entries.toList.drop 2 = parts.flatten ∧
      Field.AllParts (some (.int 8)) []
        [[⟨some (.char '^'), "FD", ["a", "b"]⟩, ⟨some (.char '^'), "BC", ["N", "50"]⟩,
          ⟨some (.char '^'), "FD", ["c"]⟩, ⟨some (.char '^'), "BY", ["3"]⟩],
        [⟨some (.char '^'), "FD", ["d"]⟩]] parts := by
  have hrun : ((Press.start (some (.int 8)) (.int 100) (.int 50) (.recording {})).andThen
      (Press.run (List.map Command.parse
        ["^XA", "^FDa,b", "^BCN,50", "^FDc", "^BY3", "^FS", "^FDd", "^XZ"]))).fault = none :=
    Option.isNone_iff_eq_none.1 (by decide)
  obtain ⟨inner, x, y, s, parts, hinner, hsurface, hentries, hall⟩ := fields_recorded hrun
  refine ⟨s, parts, hsurface, ?_, ?_⟩
  · rw [hentries]
    rfl
  · have hinterior : Label.interior (List.map Command.parse
        ["^XA", "^FDa,b", "^BCN,50", "^FDc", "^BY3", "^FS", "^FDd", "^XZ"]) =
          .ok (List.map Command.parse ["^FDa,b", "^BCN,50", "^FDc", "^BY3", "^FS", "^FDd"]) := by
      decide
    rw [hinterior] at hinner
    cases hinner
    exact hall

end Recording

end LabelPress
