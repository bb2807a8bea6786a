import LabelPress.Proofs.Label.Step
import Mathlib.Data.List.Forall2

/-!
# Arguments that are left out

A command reads its arguments at a few places only, without the white space around them, and one
that is missing is as good as one that is empty (`Argument.given`). Two rows of arguments that
agree in this sense make the same step (`Label.matches_step`), whatever else they hold: commas at
the end, more arguments than are read, or blanks of any kind.

The arguments of a barcode make it necessary to compare two labels. They are kept as they were
written until the end of the field, where they are read again and become the raw part of the
formatting. So labels, calls and steps match if they are equal but for that.
-/

namespace LabelPress

namespace Argument

/-- The argument at a place without the white space around it, empty if it is missing. -/
def given (args : List Text) (i : Nat) : Text :=
  (args[i]?.getD .empty).trim

/-- The same is given at the first places. -/
def SameUpTo (places : Nat) (args args' : List Text) : Prop :=
  ∀ i < places, given args i = given args' i

instance (places : Nat) (args args' : List Text) : Decidable (SameUpTo places args args') :=
  inferInstanceAs (Decidable (∀ i < places, _))

/-- What is given decides what is read; nothing else is left out. -/
theorem get?_eq_given (args : List Text) (i : Nat) :
    get? args i = (some (given args i)).filter (!·.isEmpty) := by
  unfold get? given
  cases args[i]? with
  | none => rfl
  | some arg => rfl

theorem SameUpTo.get?_eq {places : Nat} {args args' : List Text} (h : SameUpTo places args args')
    {i : Nat} (hi : i < places) : get? args i = get? args' i := by
  rw [get?_eq_given, get?_eq_given, h i hi]

end Argument

open Argument (get? given SameUpTo)

/-! ## What is read -/

namespace Verb

/-- At how many places a command reads its arguments. -/
def places : Verb → Nat
  | font => 3
  | namedFont => 0
  | barcode => 6
  | barcodeDefaults => 3
  | fieldData => 0
  | fieldOrigin => 2
  | fieldEnd => 0
  | box => 5
  | home => 2

/-- What the command reads of two rows of arguments is the same. The data of a field is read as one
text, with its commas and its white space. -/
def ReadsAlike (v : Verb) (args args' : List Text) : Prop :=
  SameUpTo v.places args args' ∧ (v = fieldData → Command.joinArgs args = Command.joinArgs args')

instance (v : Verb) (args args' : List Text) : Decidable (v.ReadsAlike args args') :=
  inferInstanceAs (Decidable (_ ∧ _))

end Verb

/-- Two commands of the same name, by which the same is read. Of a command that is not known nothing
is read. -/
def Command.ReadsAlike (c d : Command) : Prop :=
  c.name = d.name ∧ ∀ v ∈ Verb.ofName? c.name, v.ReadsAlike c.args d.args

instance (c d : Command) : Decidable (c.ReadsAlike d) :=
  inferInstanceAs (Decidable (_ ∧ _))

theorem Command.ReadsAlike.refl (c : Command) : c.ReadsAlike c :=
  ⟨rfl, fun _ _ => ⟨fun _ _ => rfl, fun _ => rfl⟩⟩

/-! ## Labels and steps that match -/

/-- Labels that are equal but for the arguments that are kept for a barcode, of which the same is
read. -/
inductive Label.Matches (l : Label) : Label → Prop where
  | intro (args : List Text) (h : SameUpTo Verb.barcode.places l.barcodeArgs args) :
    Matches l { l with barcodeArgs := args }

theorem Label.Matches.refl (l : Label) : l.Matches l :=
  .intro l.barcodeArgs fun _ _ => rfl

/-- Calls that are equal but for the raw part of the formatting of a barcode. -/
inductive Call.Matches : Call → Call → Prop where
  | same (c : Call) : Matches c c
  | barcode (content : Argument) (f : Formatting) (raw : Json) :
    Matches (.drawBarcode content (.formatting f))
      (.drawBarcode content (.formatting { f with raw }))

/-- Events that match. Notes are not compared: they quote arguments as they were written. -/
inductive Event.Matches : Event → Event → Prop where
  | note (n n' : Note) : Matches (.note n) (.note n')
  | call {c d : Call} {l m : Label} (hc : c.Matches d) (hl : l.Matches m) :
    Matches (.call c l) (.call d m)

namespace Step

/-- What follows on a value that was made from another one. -/
theorem withValue_map {A B : Type} (l : Label) (x : Except ValueFault A) (h : A → B)
    (f : B → Step) : withValue l (h <$> x) f = withValue l x fun a => f (h a) := by
  cases x with
  | ok a => rfl
  | error e => rfl

/-- Steps whose calls match, refused or not, and that stop for the same fault or go through. -/
structure Matches (s t : Step) : Prop where
  events : List.Forall₂ Event.Matches s.events t.events
  label : s.label.Matches t.label
  fault : s.fault = t.fault

namespace Matches

variable {s t : Step} {l m : Label} {f g : Label → Step}

theorem done (hl : l.Matches m) : Matches (done l) (done m) :=
  ⟨.nil, hl, rfl⟩

theorem fail (hl : l.Matches m) (x : Fault) : Matches (fail l x) (fail m x) :=
  ⟨.nil, hl, rfl⟩

theorem note (hl : l.Matches m) (n n' : Note) : Matches (note n l) (note n' m) :=
  ⟨.cons (.note n n') .nil, hl, rfl⟩

theorem call {c d : Call} (hl : l.Matches m) (hc : c.Matches d) : Matches (call c l) (call d m) :=
  ⟨.cons (.call hc hl) .nil, hl, rfl⟩

/-- Matching steps in a row match. The second parts have to match on every two matching labels, for
the first parts may leave different ones. -/
theorem andThen (hs : Matches s t) (hf : ∀ l m, l.Matches m → Matches (f l) (g m)) :
    Matches (s.andThen f) (t.andThen g) := by
  have ht := hs.fault
  cases hfault : s.fault with
  | some x =>
    rw [andThen_of_some hfault, andThen_of_some (ht.symm.trans hfault)]
    exact hs
  | none =>
    have hrest := hf _ _ hs.label
    rw [andThen_of_none hfault, andThen_of_none (ht.symm.trans hfault)]
    exact ⟨List.rel_append hs.events hrest.events, hrest.label, hrest.fault⟩

/-- Steps that read the same argument match if they go on in matching ways. -/
theorem withArgument {A : Type} {x y : Except ArgumentFault A} {f g : A → Step} (hl : l.Matches m)
    (hx : x = y) (hf : ∀ a, Matches (f a) (g a)) :
    Matches (withArgument l x f) (withArgument m y g) := by
  subst hx
  cases x with
  | ok a => exact hf a
  | error e => exact fail hl _

/-- Steps that compute the same value match if they go on in matching ways. -/
theorem withValue {A : Type} {x y : Except ValueFault A} {f g : A → Step} (hl : l.Matches m)
    (hx : x = y) (hf : ∀ a, Matches (f a) (g a)) :
    Matches (withValue l x f) (withValue m y g) := by
  subst hx
  cases x with
  | ok a => exact hf a
  | error e => exact fail hl _

/-- The calls of steps that match, in order. -/
theorem calls (hs : Matches s t) : List.Forall₂ Call.Matches s.calls t.calls := by
  obtain ⟨es, l, x⟩ := s
  obtain ⟨fs, m, y⟩ := t
  have hevents : List.Forall₂ Event.Matches es fs := hs.events
  clear hs
  induction hevents with
  | nil => exact .nil
  | cons he _ ih =>
    cases he with
    | note n n' => exact ih
    | call hc _ => exact .cons hc ih

end Matches

end Step

/-! ## Verb by verb -/

namespace Label

variable {l m : Label} {args args' : List Text}

theorem matches_goTo (hl : l.Matches m) (x y : Int) : (goTo x y l).Matches (goTo x y m) := by
  obtain ⟨bs, hbs⟩ := hl
  exact .withValue ⟨bs, hbs⟩ rfl fun (_, _) => .call ⟨bs, hbs⟩ (.same _)

theorem matches_resetFont (hl : l.Matches m) : (resetFont l).Matches (resetFont m) := by
  obtain ⟨bs, hbs⟩ := hl
  exact .call ⟨bs, hbs⟩ (.same _)

/-- The dots of a font depend on the arguments at the places of a font only. -/
theorem fontDots_congr (h : SameUpTo Verb.font.places args args') :
    fontDots args = fontDots args' := by
  unfold fontDots
  rw [h.get?_eq (i := 0) (by decide), h.get?_eq (i := 1) (by decide),
    h.get?_eq (i := 2) (by decide)]

/-- A font is chosen from those places. -/
theorem matches_font (hl : l.Matches m) (h : SameUpTo Verb.font.places args args') :
    (font args l).Matches (font args' m) := by
  obtain ⟨bs, hbs⟩ := hl
  exact .withArgument ⟨bs, hbs⟩ (fontDots_congr h) fun _ => .withValue ⟨bs, hbs⟩ rfl fun _ =>
    .call ⟨bs, hbs⟩ (.same _)

/-- Whether a barcode is accepted depends on the places of a barcode, and on what both labels agree
about: the height set for all barcodes. -/
theorem checkBarcode_congr (hl : l.Matches m) (h : SameUpTo Verb.barcode.places args args') :
    checkBarcode args l = checkBarcode args' m := by
  obtain ⟨bs, -⟩ := hl
  unfold checkBarcode
  rw [h.get?_eq (i := 0) (by decide), h.get?_eq (i := 1) (by decide),
    h.get?_eq (i := 2) (by decide), h.get?_eq (i := 3) (by decide), h.get?_eq (i := 4) (by decide),
    h.get?_eq (i := 5) (by decide)]

/-- The arguments are kept as they are, with all that is not read. -/
theorem matches_barcode (hl : l.Matches m) (h : SameUpTo Verb.barcode.places args args') :
    (barcode args l).Matches (barcode args' m) := by
  have hcheck := checkBarcode_congr hl h
  obtain ⟨bs, hbs⟩ := hl
  exact .withArgument ⟨bs, hbs⟩ hcheck fun _ => .done ⟨args', h⟩

/-- The three values are read one after another, and a refusal leaves those before it set on both
sides. -/
theorem matches_barcodeDefaults (hl : l.Matches m)
    (h : SameUpTo Verb.barcodeDefaults.places args args') :
    (barcodeDefaults args l).Matches (barcodeDefaults args' m) := by
  obtain ⟨bs, hbs⟩ := hl
  unfold barcodeDefaults
  rw [h.get?_eq (i := 0) (by decide), h.get?_eq (i := 1) (by decide),
    h.get?_eq (i := 2) (by decide)]
  -- a value that is set stays set if a later one is refused
  exact .withArgument ⟨bs, hbs⟩ rfl fun _ => .withArgument ⟨bs, hbs⟩ rfl fun _ =>
    .withArgument ⟨bs, hbs⟩ rfl fun _ => .done ⟨bs, hbs⟩

/-- Data that are joined to the same text are the same data. -/
theorem matches_fieldData (hl : l.Matches m) (h : Command.joinArgs args = Command.joinArgs args') :
    (fieldData args l).Matches (fieldData args' m) := by
  obtain ⟨bs, hbs⟩ := hl
  unfold fieldData
  rw [h]
  have hpending : isPending { l with barcodeArgs := bs } = l.isPending := rfl
  rw [hpending]
  cases l.isPending with
  | true => exact .done ⟨bs, hbs⟩
  | false => exact .call ⟨bs, hbs⟩ (.same _)

/-- An origin is read from its places and added to the home position on both sides. -/
theorem matches_fieldOrigin (hl : l.Matches m)
    (h : SameUpTo Verb.fieldOrigin.places args args') :
    (fieldOrigin args l).Matches (fieldOrigin args' m) := by
  unfold fieldOrigin
  rw [h.get?_eq (i := 0) (by decide), h.get?_eq (i := 1) (by decide)]
  refine .withArgument hl rfl fun (x, y) => .andThen (matches_goTo hl x y) fun l m hl => ?_
  obtain ⟨bs, hbs⟩ := hl
  have hstate : ({ l with barcodeArgs := bs } : Label).state = l.state := rfl
  rw [hstate]
  split
  · exact .done ⟨bs, hbs⟩
  · exact .done ⟨bs, hbs⟩

/-- A letter of a barcode is found at one of its places. -/
theorem letter_congr (h : SameUpTo Verb.barcode.places args args') {i : Nat}
    (hi : i < Verb.barcode.places) (default : Text) :
    letter args i default = letter args' i default := by
  unfold letter
  rw [h.get?_eq hi]

/-- The raw part is all in which the formattings differ. -/
theorem formatting_of_matches (hl : l.Matches m) :
    m.formatting =
      (fun f => { f with raw := .array (m.barcodeArgs.map .string) }) <$> l.formatting := by
  obtain ⟨bs, hbs⟩ := hl
  have hheight : pendingHeight { l with barcodeArgs := bs } = l.pendingHeight := by
    unfold pendingHeight
    rw [hbs.get?_eq (i := 1) (by decide)]
  unfold formatting
  rw [hheight]
  simp only [letter_congr hbs (i := 0) (by decide), letter_congr hbs (i := 2) (by decide),
    letter_congr hbs (i := 3) (by decide), letter_congr hbs (i := 4) (by decide),
    letter_congr hbs (i := 5) (by decide)]
  -- the raw part is put in last, behind the three values that can be of no use
  simp only [map_bind, map_pure]
  rfl

/-- What waits is drawn with the formatting that the arguments of the barcode give, which is the
same on both sides. -/
theorem matches_drawPending (hl : l.Matches m) : (drawPending l).Matches (drawPending m) := by
  unfold drawPending
  rw [formatting_of_matches hl, Step.withValue_map]
  refine .withValue hl rfl fun f => ?_
  refine .andThen (.andThen (.note hl _ _) fun l m hl => ?_) fun l m hl => ?_
  · obtain ⟨bs, hbs⟩ := hl
    exact .call ⟨bs, hbs⟩ (.barcode _ f _)
  · obtain ⟨bs, hbs⟩ := hl
    exact .done ⟨[], fun _ _ => rfl⟩

/-- The end of a field draws what waits and returns to the same state. -/
theorem matches_fieldEnd (hl : l.Matches m) : (fieldEnd l).Matches (fieldEnd m) := by
  have hdraw : (if l.isPending then drawPending l else .done l).Matches
      (if m.isPending then drawPending m else .done m) := by
    have hpending : m.isPending = l.isPending := by
      obtain ⟨bs, -⟩ := hl
      rfl
    rw [hpending]
    split
    · exact matches_drawPending hl
    · exact .done hl
  have hfont := hdraw.andThen fun _ _ hl => matches_resetFont hl
  have hgo := hfont.andThen fun _ _ hl => matches_goTo hl 0 0
  refine hgo.andThen fun l m hl => ?_
  obtain ⟨bs, hbs⟩ := hl
  exact .done ⟨bs, hbs⟩

theorem boxOf_congr (h : SameUpTo Verb.box.places args args') : boxOf args = boxOf args' := by
  unfold boxOf
  rw [h.get?_eq (i := 0) (by decide), h.get?_eq (i := 1) (by decide),
    h.get?_eq (i := 2) (by decide), h.get?_eq (i := 3) (by decide), h.get?_eq (i := 4) (by decide)]

/-- Both boxes are drawn at the same place, with the same sides. -/
theorem matches_box (hl : l.Matches m) (h : SameUpTo Verb.box.places args args') :
    (box args l).Matches (box args' m) := by
  obtain ⟨bs, hbs⟩ := hl
  exact .withArgument ⟨bs, hbs⟩ (boxOf_congr h) fun _ => .withValue ⟨bs, hbs⟩ rfl fun (_, _, _) =>
    .call ⟨bs, hbs⟩ (.same _)

/-- Home positions are read from their places. -/
theorem matches_home (hl : l.Matches m) (h : SameUpTo Verb.home.places args args') :
    (home args l).Matches (home args' m) := by
  obtain ⟨bs, hbs⟩ := hl
  unfold home
  rw [h.get?_eq (i := 0) (by decide), h.get?_eq (i := 1) (by decide)]
  exact .withArgument ⟨bs, hbs⟩ rfl fun (_, _) => .withValue ⟨bs, hbs⟩ rfl fun (_, _) =>
    .done ⟨bs, hbs⟩

/-- Commands by which the same is read make the same step on labels that match. -/
theorem matches_step {c d : Command} (hl : l.Matches m) (h : c.ReadsAlike d) :
    (l.step c.name c.args).Matches (m.step d.name d.args) := by
  obtain ⟨hname, hargs⟩ := h
  unfold step
  rw [← hname]
  cases hverb : Verb.ofName? c.name with
  | none => exact .note hl _ _
  | some v =>
    -- which arguments are read is a matter of the verb
    obtain ⟨hsame, htext⟩ := hargs v hverb
    cases v with
    | font => exact matches_font hl hsame
    | namedFont => exact .note hl _ _
    | barcode => exact matches_barcode hl hsame
    | barcodeDefaults => exact matches_barcodeDefaults hl hsame
    | fieldData => exact matches_fieldData hl (htext rfl)
    | fieldOrigin => exact matches_fieldOrigin hl hsame
    | fieldEnd => exact matches_fieldEnd hl
    | box => exact matches_box hl hsame
    | home => exact matches_home hl hsame

end Label

end LabelPress
