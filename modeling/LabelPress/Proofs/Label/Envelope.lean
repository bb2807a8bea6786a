import LabelPress.Press

/-!
# Which commands are a label

A label is `XA`, commands none of which is `XA` or `XZ`, and `XZ` (`Label.IsLabel`). Of what keeps
commands from being a label one thing is told (`Label.Breaks`): first what the first command is, then
what the last one is, then the first command in between that begins or ends a label.

The commands inside are found exactly if there is nothing to tell (`Label.interior_eq_ok_iff`,
`Label.interior_eq_error_iff`). A press looks at the envelope as a whole before it carries out the first
command, so that it does nothing for commands that are no label (`Press.run_judged`).
-/

namespace LabelPress

namespace Label

variable {commands inner : List Command} {c : Command} {fault : EnvelopeFault}

theorem isEnvelope_eq_false : isEnvelope c = false ↔ c.name ≠ "XA" ∧ c.name ≠ "XZ" := by
  simp [isEnvelope]

theorem isEnvelope_eq_true : isEnvelope c = true ↔ c.name = "XA" ∨ c.name = "XZ" := by
  simp [isEnvelope]

/-- The envelope of at least two commands is the first and the last of them. -/
theorem interior_of_ends (first last : Command) (inner : List Command) :
    interior (first :: (inner ++ [last])) =
      if first.name ≠ "XA" then .error (.notBegun (some first.name))
      else if last.name ≠ "XZ" then .error (.notEnded (some last.name))
      else
        (inner.find? isEnvelope).elim (.ok inner) fun d =>
          .error (if d.name = "XA" then .nested else .endedEarly) := by
  unfold interior
  simp only [List.getLast?_append, List.getLast?_singleton, Option.some_or, List.dropLast_concat]
  cases inner.find? isEnvelope <;> rfl

/-! ## What a label is, and what is wrong with others -/

/-- Commands that neither begin nor end a label. -/
def Plain (commands : List Command) : Prop :=
  ∀ c ∈ commands, c.name ≠ "XA" ∧ c.name ≠ "XZ"

/-- The commands are a label around `inner`. -/
inductive Wraps (inner : List Command) : List Command → Prop where
  | intro (first last : Command) (hfirst : first.name = "XA") (hlast : last.name = "XZ")
      (hinner : Plain inner) : Wraps inner (first :: (inner ++ [last]))

/-- Commands with a proper envelope around them. -/
def IsLabel (commands : List Command) : Prop :=
  ∃ inner, Wraps inner commands

/-- What is told about commands that are no label. -/
inductive Breaks : List Command → EnvelopeFault → Prop where
  | nothing : Breaks [] (.notBegun none)
  | notBegun (first : Command) (rest : List Command) (hfirst : first.name ≠ "XA") :
      Breaks (first :: rest) (.notBegun (some first.name))
  /-- A single command does not end the label that it begins. -/
  | single (first : Command) (hfirst : first.name = "XA") : Breaks [first] (.notEnded none)
  | notEnded (first last : Command) (inner : List Command) (hfirst : first.name = "XA")
      (hlast : last.name ≠ "XZ") :
      Breaks (first :: (inner ++ [last])) (.notEnded (some last.name))
  | nested (first last c : Command) (before after : List Command) (hfirst : first.name = "XA")
      (hlast : last.name = "XZ") (hbefore : Plain before) (hc : c.name = "XA") :
      Breaks (first :: ((before ++ c :: after) ++ [last])) .nested
  | endedEarly (first last c : Command) (before after : List Command) (hfirst : first.name = "XA")
      (hlast : last.name = "XZ") (hbefore : Plain before) (hc : c.name = "XZ") :
      Breaks (first :: ((before ++ c :: after) ++ [last])) .endedEarly

/-- The commands fail at the beginning of a label: there is none at the first command, or one too many
between the first command and the last. -/
inductive BreaksFirst : List Command → Prop where
  | missing (commands : List Command) (h : ∀ c ∈ commands.head?, c.name ≠ "XA") :
      BreaksFirst commands
  | nested (first last c : Command) (before after : List Command) (hfirst : first.name = "XA")
      (hlast : last.name = "XZ") (hbefore : Plain before) (hc : c.name = "XA") :
      BreaksFirst (first :: ((before ++ c :: after) ++ [last]))

/-! ## What is found -/

theorem plain_iff_find? : Plain inner ↔ inner.find? isEnvelope = none := by
  simp only [Plain, List.find?_eq_none, Bool.not_eq_true, isEnvelope_eq_false]

/-- The first command that begins or ends a label divides the others. -/
theorem find?_isEnvelope_eq_some :
    inner.find? isEnvelope = some c ↔
      (c.name = "XA" ∨ c.name = "XZ") ∧ ∃ before after, inner = before ++ c :: after ∧ Plain before := by
  simp only [List.find?_eq_some_iff_append, isEnvelope_eq_true, Bool.not_eq_true',
    isEnvelope_eq_false, Plain]

theorem xz_ne_xa : ("XZ" : Text) ≠ "XA" := by decide

theorem interior_of_wraps (h : Wraps inner commands) : interior commands = .ok inner := by
  obtain ⟨first, last, hfirst, hlast, hinner⟩ := h
  rw [interior_of_ends, plain_iff_find?.1 hinner]
  simp [hfirst, hlast]

/-- Every way to break the envelope has its own fault. -/
theorem interior_of_breaks (h : Breaks commands fault) : interior commands = .error fault := by
  cases h with
  | nothing => rfl
  | notBegun first rest hfirst => simp [interior, hfirst]
  | single first hfirst => simp [interior, hfirst]
  | notEnded first last inner hfirst hlast => simp [interior_of_ends, hfirst, hlast]
  | nested first last c before after hfirst hlast hbefore hc =>
    rw [interior_of_ends, find?_isEnvelope_eq_some.2 ⟨.inl hc, before, after, rfl, hbefore⟩]
    simp [hfirst, hlast, hc]
  | endedEarly first last c before after hfirst hlast hbefore hc =>
    rw [interior_of_ends, find?_isEnvelope_eq_some.2 ⟨.inr hc, before, after, rfl, hbefore⟩]
    simp [hfirst, hlast, hc, xz_ne_xa]

/-- Commands are a label, or something is wrong with them. -/
theorem wraps_or_breaks (commands : List Command) :
    (∃ inner, Wraps inner commands) ∨ ∃ fault, Breaks commands fault := by
  -- the cases are in the order in which the fault that is told is looked for
  cases commands with
  | nil => exact .inr ⟨_, .nothing⟩
  | cons first rest =>
    by_cases hfirst : first.name = "XA"
    · rcases List.eq_nil_or_concat rest with rfl | ⟨inner, last, rfl⟩
      · exact .inr ⟨_, .single first hfirst⟩
      · rw [List.concat_eq_append]
        by_cases hlast : last.name = "XZ"
        · cases hfind : inner.find? isEnvelope with
          | none => exact .inl ⟨inner, .intro first last hfirst hlast (plain_iff_find?.2 hfind)⟩
          | some c =>
            obtain ⟨hc, before, after, rfl, hbefore⟩ := find?_isEnvelope_eq_some.1 hfind
            rcases hc with hc | hc
            · exact .inr ⟨_, .nested first last c before after hfirst hlast hbefore hc⟩
            · exact .inr ⟨_, .endedEarly first last c before after hfirst hlast hbefore hc⟩
        · exact .inr ⟨_, .notEnded first last inner hfirst hlast⟩
    · exact .inr ⟨_, .notBegun first rest hfirst⟩

theorem interior_eq_ok_iff : interior commands = .ok inner ↔ Wraps inner commands := by
  refine ⟨fun h => ?_, interior_of_wraps⟩
  rcases wraps_or_breaks commands with ⟨other, hwraps⟩ | ⟨fault, hbreaks⟩
  · rw [interior_of_wraps hwraps] at h
    cases h
    exact hwraps
  · rw [interior_of_breaks hbreaks] at h
    cases h

theorem interior_eq_error_iff : interior commands = .error fault ↔ Breaks commands fault := by
  refine ⟨fun h => ?_, interior_of_breaks⟩
  rcases wraps_or_breaks commands with ⟨inner, hwraps⟩ | ⟨other, hbreaks⟩
  · rw [interior_of_wraps hwraps] at h
    cases h
  · rw [interior_of_breaks hbreaks] at h
    cases h
    exact hbreaks

/-- Two labels one after the other are no label: the first one ends too early. -/
example : interior ((["XA", "XZ", "XA", "XZ"] : List Text).map fun name => { name, args := [] }) =
    .error .endedEarly := rfl

/-- What is told cannot be told of a label, and nothing else can be told of the same commands. -/
theorem Breaks.not_isLabel (h : Breaks commands fault) : ¬ IsLabel commands := by
  rintro ⟨inner, hwraps⟩
  have hok := interior_of_wraps hwraps
  rw [interior_of_breaks h] at hok
  cases hok

theorem Breaks.unique {other : EnvelopeFault} (h : Breaks commands fault)
    (hother : Breaks commands other) : fault = other :=
  Except.error.inj ((interior_of_breaks h).symm.trans (interior_of_breaks hother))

/-- The side that is told is the one on which the commands fail. -/
theorem Breaks.side_eq_first_iff (h : Breaks commands fault) :
    fault.side = .first ↔ BreaksFirst commands := by
  constructor
  · intro hside
    cases h with
    | nothing => exact .missing [] fun c hc => nomatch hc
    | notBegun first rest hfirst =>
      exact .missing _ fun c hc => Option.some.inj hc ▸ hfirst
    | single | notEnded | endedEarly => cases hside
    | nested first last c before after hfirst hlast hbefore hc =>
      exact .nested first last c before after hfirst hlast hbefore hc
  · intro hfirst
    -- the envelope may be broken on both sides, but only one fault is told
    cases hfirst with
    | missing _ hnone =>
      cases h with
      | nothing | notBegun => rfl
      | single _ hfirst | notEnded _ _ _ hfirst | endedEarly _ _ _ _ _ hfirst =>
        exact absurd hfirst (hnone _ rfl)
      | nested => rfl
    | nested first last c before after hfirst hlast hbefore hc =>
      obtain rfl := h.unique (.nested first last c before after hfirst hlast hbefore hc)
      rfl

end Label

namespace Press

open Label (IsLabel Wraps Breaks BreaksFirst)

/-- A press accepts exactly the commands that are a label, and judges them before it does anything.
For others it tells the side on which they fail, the beginning of a label or its end, and what is wrong;
the label under way and the surface are as they were, and there are no notes. Of commands that are a
label it carries out those inside. -/
theorem run_judged (commands : List Command) :
    ((∃ inner, Label.interior commands = .ok inner) ↔ IsLabel commands) ∧
      (∀ side, (∃ fault, Label.interior commands = .error fault ∧ fault.side = side) ↔
        ¬ IsLabel commands ∧ (side = .first ↔ BreaksFirst commands)) ∧
      (∀ fault, Label.interior commands = .error fault ↔ Breaks commands fault) ∧
      ∀ p : Press,
        (∃ inner, Wraps inner commands ∧ p.run commands = p.dispatchAll inner) ∨
          ∃ fault, Breaks commands fault ∧ p.run commands = .refused p (.envelope fault) := by
  refine ⟨exists_congr fun inner => Label.interior_eq_ok_iff, fun side => ⟨?_, ?_⟩,
    fun fault => Label.interior_eq_error_iff, fun p => ?_⟩
  · rintro ⟨fault, hfault, rfl⟩
    have hbreaks := Label.interior_eq_error_iff.1 hfault
    exact ⟨hbreaks.not_isLabel, hbreaks.side_eq_first_iff⟩
  · rintro ⟨hnone, hside⟩
    obtain ⟨fault, hbreaks⟩ := (Label.wraps_or_breaks commands).resolve_left hnone
    refine ⟨fault, Label.interior_of_breaks hbreaks, ?_⟩
    -- there are two sides only, so the one is the other if both are or are not the first
    have hsame : fault.side = .first ↔ side = .first := hbreaks.side_eq_first_iff.trans hside.symm
    cases side <;> cases hfault : fault.side <;> simp_all
  · rcases Label.wraps_or_breaks commands with ⟨inner, hwraps⟩ | ⟨fault, hbreaks⟩
    · exact .inl ⟨inner, hwraps, by rw [run, Label.interior_of_wraps hwraps]⟩
    · exact .inr ⟨fault, hbreaks, by rw [run, Label.interior_of_breaks hbreaks]⟩

end Press

end LabelPress
