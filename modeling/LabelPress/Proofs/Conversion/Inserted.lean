import LabelPress.Conversion
import LabelPress.Proofs.Input.Kept
import LabelPress.Proofs.Label.Envelope
import LabelPress.Proofs.Press.Take

/-!
# Commands on which nothing happens

A label passes over the commands that it does not know, and over `A@`. Such a command can be put
before any mark of a text but the first one, and nothing comes of it: the same calls are made, the
surface is left the same, and there is the same document or the same fault.

* `Script.commands_insert`: to the reader the inserted text is one more command, and the commands on
  both sides of it stay as they are;
* `Label.alike_enveloped`: to the label it is one more note, inside the envelope;
* `Press.start_run`: all that a conversion does is one step, of whose calls and fault the surface
  learns, and of whose notes it does not.
-/

namespace LabelPress

/-! ## To the reader -/

namespace Script

/-- A piece between a text with a mark and one that begins with a mark is one more command, or there
are no commands for a reason that has nothing to do with it. -/
theorem commands_insert {before piece after : List Char} (hbefore : ∃ c ∈ before, isMark c = true)
    (hpiece : IsPiece piece) (hafter : ∃ c ∈ after.head?, isMark c = true) :
    (∃ fault, commands (before ++ piece ++ after) = .error fault ∧
      commands (before ++ after) = .error fault) ∨
    ∃ cs ds, cs ≠ [] ∧ ds ≠ [] ∧
      commands (before ++ piece ++ after) = .ok (cs ++ command piece :: ds) ∧
      commands (before ++ after) = .ok (cs ++ ds) := by
  obtain ⟨m, hm, hmark⟩ := hafter
  have hne : after ≠ [] := by
    rintro rfl
    cases hm
  have hhead : ∀ c ∈ after.head?, isMark c = true := by
    intro c hc
    rw [Option.mem_unique hc hm]
    exact hmark
  -- both texts are read in two parts, of which the first is the same
  rw [List.append_assoc, commands_append hbefore (isMark_of_head hpiece after),
    commands_append hbefore hhead, pieces_append piece hhead, pieces_of_isPiece hpiece]
  cases h : commands before with
  | error fault => exact .inl ⟨fault, rfl, rfl⟩
  | ok cs =>
    refine .inr ⟨cs, (pieces after).map command, commands_ne_nil hbefore h, ?_, rfl, rfl⟩
    rw [Ne, List.map_eq_nil_iff]
    exact pieces_ne_nil hne

end Script

/-! ## To the label -/

namespace Step

/-- Steps that differ in their notes only. -/
structure Alike (s t : Step) : Prop where
  calls : s.calls = t.calls
  label : s.label = t.label
  fault : s.fault = t.fault

namespace Alike

variable {s t : Step} {f g : Label → Step}

theorem refl (s : Step) : Alike s s := ⟨rfl, rfl, rfl⟩

theorem andThen (h : Alike s t) (hf : ∀ l, Alike (f l) (g l)) :
    Alike (s.andThen f) (t.andThen g) := by
  obtain ⟨hcalls, hlabel, hfault⟩ := h
  -- both stop at the first step, or both go on from the same label
  cases ht : t.fault with
  | some x =>
    rw [andThen_of_some (hfault.trans ht), andThen_of_some ht]
    exact ⟨hcalls, hlabel, hfault⟩
  | none =>
    have hs : s.fault = none := hfault.trans ht
    obtain ⟨hcalls', hlabel', hfault'⟩ := hf t.label
    refine ⟨?_, ?_, ?_⟩
    · rw [calls_andThen f hs, calls_andThen g ht, hcalls, hlabel, hcalls']
    · rw [label_andThen hs, label_andThen ht, hlabel, hlabel']
    · rw [fault_andThen hs, fault_andThen ht, hlabel, hfault']

theorem note (n : Note) (f : Label → Step) (l : Label) : Alike ((Step.note n l).andThen f) (f l) :=
  ⟨calls_andThen f (fault_note n l), label_andThen (fault_note n l) f,
    fault_andThen (fault_note n l) f⟩

end Alike

end Step

namespace Label

open Step (Alike)

/-- A command on which nothing happens: its name is neither one that a label acts on nor one of the
envelope. -/
def IsIdle (c : Command) : Prop :=
  c.name.upper ∉ (["A", "BC", "BY", "FD", "FO", "FS", "GB", "LH", "XA", "XZ"] : List Text)

variable {c : Command}

instance : Decidable (IsIdle c) := inferInstanceAs (Decidable (_ ∉ _))

/-- An idle command is noted, and changes nothing. -/
theorem step_of_isIdle (h : IsIdle c) (l : Label) : ∃ n, l.step c.name c.args = .note n l := by
  unfold step
  cases hverb : Verb.ofName? c.name with
  | none => exact ⟨_, rfl⟩
  | some v =>
    -- of the verbs that a label knows only `A@` is left
    have hcode : v.code = c.name.upper := by simpa using List.find?_some hverb
    unfold IsIdle at h
    rw [← hcode] at h
    cases v with
    | namedFont => exact ⟨_, rfl⟩
    | font | barcode | barcodeDefaults | fieldData | fieldOrigin | fieldEnd | box | home =>
      exact absurd (by decide) h

/-- It does not open or close a label. -/
theorem not_isEnvelope_of_isIdle (h : IsIdle c) : isEnvelope c = false := by
  rw [← Bool.not_eq_true]
  intro henvelope
  unfold IsIdle at h
  rcases Bool.or_eq_true_iff.1 henvelope with hname | hname
  · rw [beq_iff_eq.1 hname] at h
    exact absurd (by decide) h
  · rw [beq_iff_eq.1 hname] at h
    exact absurd (by decide) h

/-- So commands with an idle one among them do what they do without it, but for the notes. -/
theorem alike_steps (h : IsIdle c) (cs ds : List Command) (l : Label) :
    Alike (steps (cs ++ c :: ds) l) (steps (cs ++ ds) l) := by
  have hidle (m : Label) : Alike (steps (c :: ds) m) (steps ds m) := by
    obtain ⟨n, hn⟩ := step_of_isIdle h m
    rw [steps, hn]
    exact .note n _ m
  rw [steps_append, steps_append]
  exact .andThen (.refl _) hidle

/-- A command on which nothing happens can stand anywhere between the first command and the last. -/
theorem alike_enveloped (h : IsIdle c) {cs ds : List Command} (hcs : cs ≠ []) (hds : ds ≠ [])
    (l : Label) : Alike (enveloped (cs ++ c :: ds) l) (enveloped (cs ++ ds) l) := by
  obtain ⟨first, cs, rfl⟩ := List.exists_cons_of_ne_nil hcs
  obtain ⟨ds, last, rfl⟩ : ∃ es last, ds = es ++ [last] :=
    ⟨_, _, (List.dropLast_concat_getLast hds).symm⟩
  have hlong : first :: cs ++ c :: (ds ++ [last]) = first :: ((cs ++ c :: ds) ++ [last]) := by simp
  have hshort : first :: cs ++ (ds ++ [last]) = first :: ((cs ++ ds) ++ [last]) := by simp
  have hfind : (cs ++ c :: ds).find? isEnvelope = (cs ++ ds).find? isEnvelope := by
    rw [List.find?_append, List.find?_append, List.find?_cons, not_isEnvelope_of_isIdle h]
  unfold enveloped
  rw [hlong, hshort, interior_of_ends, interior_of_ends, hfind]
  -- the first and the last command are judged alike, and what lies between them is carried out
  by_cases hfirst : first.name = "XA"
  · by_cases hlast : last.name = "XZ"
    · simp only [hfirst, hlast, ne_eq, not_true_eq_false, if_false]
      cases (cs ++ ds).find? isEnvelope with
      | none => exact alike_steps h cs ds l
      | some d => exact .refl _
    · simp only [hfirst, hlast, ne_eq, not_true_eq_false, not_false_eq_true, if_false, if_true]
      exact .refl _
  · simp only [hfirst, ne_eq, not_false_eq_true, if_true]
    exact .refl _

end Label

/-! ## To the surface -/

namespace Surface

/-- The calls that reach a surface: all up to the first that it refuses, and that one. -/
def reached : List Call → Surface → List Call
  | [], _ => []
  | c :: cs, s =>
    match (s.draw c).fault with
    | some _ => [c]
    | none => c :: reached cs (s.draw c).state

/-- No other call matters. -/
theorem drawAll_reached (cs : List Call) (s : Surface) : s.drawAll (s.reached cs) = s.drawAll cs := by
  induction cs generalizing s with
  | nil => rfl
  | cons c cs ih =>
    unfold reached
    cases h : (s.draw c).fault with
    | some x =>
      simp only [drawAll]
      rw [Outcome.andThen_of_some h, Outcome.andThen_of_some h]
    | none =>
      simp only [drawAll]
      rw [Outcome.andThen_of_none h, Outcome.andThen_of_none h, ih]

end Surface

namespace Conversion

open Step (Alike)

/-- What comes of a step on a new surface: its calls are drawn, and unless something stops it the
surface is finished. -/
def drawn (t : Step) (surface : Surface) : Surface × Except Fault Document :=
  let o := surface.drawAll (surface.reached t.calls)
  match o.fault.or t.fault with
  | some fault => (o.state, .error fault)
  | none => o.state.finish

/-- What a conversion leaves and gives depends on the calls of its step, its label and its fault. -/
theorem ofCommands_eq_drawn (commands : List Command) (resolution : Option Number)
    (width height : Json) (surface : Surface) :
    ((ofCommands commands resolution width height surface).surface,
        (ofCommands commands resolution width height surface).result) =
      drawn (Press.converted resolution width height commands) surface := by
  unfold ofCommands drawn
  rw [Press.start_run, Surface.drawAll_reached]
  simp only [Press.surface_take, Press.fault_take]
  cases (surface.drawAll (Press.converted resolution width height commands).calls).fault.or
      (Press.converted resolution width height commands).fault with
  | some fault => rfl
  | none => rfl

/-- The calls that reach a surface in a conversion. -/
def calls (r : Reader) (s : Settings) (surface : Surface) : List Call :=
  match r.commands.2 with
  | .error _ => []
  | .ok commands =>
    surface.reached
      (Press.converted (some s.resolution) (.number s.width) (.number s.height) commands).calls

/-- Two readers are converted alike: on every surface the same calls are made, the surface is left
the same, and there is the same document or the same fault. -/
def ConvertAlike (r r' : Reader) : Prop :=
  ∀ (s : Settings) (surface : Surface), calls r s surface = calls r' s surface ∧
    (withSettings r s surface).surface = (withSettings r' s surface).surface ∧
    (withSettings r s surface).result = (withSettings r' s surface).result

theorem convertAlike_of_error {r r' : Reader} {fault : Fault} (h : r.commands.2 = .error fault)
    (h' : r'.commands.2 = .error fault) : ConvertAlike r r' := by
  intro s surface
  unfold calls withSettings ofReader
  rw [h, h']
  exact ⟨rfl, rfl, rfl⟩

/-- Readers whose commands make alike steps of every label convert alike. -/
theorem convertAlike_of_ok {r r' : Reader} {cs ds : List Command} (h : r.commands.2 = .ok cs)
    (h' : r'.commands.2 = .ok ds) (hsame : ∀ l, Alike (Label.enveloped cs l) (Label.enveloped ds l)) :
    ConvertAlike r r' := by
  intro s surface
  have hstep : Alike
      (Press.converted (some s.resolution) (.number s.width) (.number s.height) cs)
      (Press.converted (some s.resolution) (.number s.width) (.number s.height) ds) :=
    .andThen (.refl _) hsame
  have hdrawn := ofCommands_eq_drawn cs (some s.resolution) (.number s.width) (.number s.height)
    surface
  have hdrawn' := ofCommands_eq_drawn ds (some s.resolution) (.number s.width) (.number s.height)
    surface
  -- a conversion is known by the calls and the fault of its step, and these are equal
  unfold drawn at hdrawn hdrawn'
  rw [hstep.calls, hstep.fault, ← hdrawn'] at hdrawn
  unfold calls withSettings ofReader
  rw [h, h']
  exact ⟨congrArg (Surface.reached · surface) hstep.calls, congrArg Prod.fst hdrawn,
    congrArg Prod.snd hdrawn⟩

/-- A command on which nothing happens, which is any command but those that a label acts on and
those of its envelope, may be put before every mark of a text in UTF-8 but the first: text with it
and text without it are converted alike. -/
theorem convertAlike_inserted {library : Codec.Library} {before inserted after : String}
    {r : Reader} {c : Command}
    (hbefore : ∃ x ∈ before.toList, Script.isMark x = true)
    (hinserted : Script.IsPiece inserted.toList)
    (hafter : ∃ x ∈ after.toList.head?, Script.isMark x = true)
    (hread : Reader.ofText library "utf-8" inserted = .ok r) (hcommand : r.commands.2 = .ok [c])
    (hidle : Label.IsIdle c) :
    ∃ r₁ r₂, Reader.ofText library "utf-8" (before ++ inserted ++ after) = .ok r₁ ∧
      Reader.ofText library "utf-8" (before ++ after) = .ok r₂ ∧ ConvertAlike r₁ r₂ := by
  -- the command that is read is the one that the inserted characters spell
  obtain rfl : Reader.ofUtf8 inserted = r := by
    rw [Reader.ofText_utf8] at hread
    exact Except.ok.inj hread
  obtain rfl : Script.command inserted.toList = c := by
    rw [Reader.commands_ofUtf8, Script.commands_of_isPiece hinserted] at hcommand
    exact (List.cons.inj (Except.ok.inj hcommand)).1
  refine ⟨_, _, Reader.ofText_utf8 _ _, Reader.ofText_utf8 _ _, ?_⟩
  have hlong := Reader.commands_ofUtf8 (before ++ inserted ++ after)
  have hshort := Reader.commands_ofUtf8 (before ++ after)
  rw [String.toList_append, String.toList_append] at hlong
  rw [String.toList_append] at hshort
  rcases Script.commands_insert hbefore hinserted hafter with
    ⟨fault, hfault, hfault'⟩ | ⟨cs, ds, hcs, hds, hok, hok'⟩
  · rw [hfault] at hlong
    rw [hfault'] at hshort
    exact convertAlike_of_error hlong hshort
  · rw [hok] at hlong
    rw [hok'] at hshort
    exact convertAlike_of_ok hlong hshort (Label.alike_enveloped hidle hcs hds)

/-- A font by its name, in small letters and with white space, between the data and the end of a
field that shows a barcode. -/
theorem convertAlike_inserted_namedFont :
    ∃ r₁ r₂,
      Reader.ofText .standard "utf-8" ("\n^XA^BCN,50^FD a" ++ "~a @n, E:F \n" ++ "^FS^XZ") = .ok r₁ ∧
      Reader.ofText .standard "utf-8" ("\n^XA^BCN,50^FD a" ++ "^FS^XZ") = .ok r₂ ∧ ConvertAlike r₁ r₂ := by
  have hcommand : (Reader.ofUtf8 "~a @n, E:F \n").commands.2 =
      .ok [⟨some (.char '~'), "A@", ["n", "E:F"]⟩] := by
    have hscript : Script.commands "~a @n, E:F \n".toList =
        .ok [⟨some (.char '~'), "A@", ["n", "E:F"]⟩] := by
      decide
    rw [Reader.commands_ofUtf8, hscript]
    rfl
  have hpiece : Script.IsPiece "~a @n, E:F \n".toList := by decide
  have hidle : Label.IsIdle ⟨some (.char '~'), "A@", ["n", "E:F"]⟩ := by decide
  have hbefore : ∃ x ∈ "\n^XA^BCN,50^FD a".toList, Script.isMark x = true :=
    ⟨'^', by decide, by decide⟩
  have hafter : ∃ x ∈ "^FS^XZ".toList.head?, Script.isMark x = true := ⟨'^', by decide, by decide⟩
  exact convertAlike_inserted hbefore hpiece hafter (Reader.ofText_utf8 _ _) hcommand hidle

end Conversion

end LabelPress
