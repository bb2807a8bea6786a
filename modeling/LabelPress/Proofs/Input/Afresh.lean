import LabelPress.Proofs.Conversion.Faults
import LabelPress.Proofs.Input.Session

/-!
# Reading from the beginning

Everything that reads a source shares one cursor: single tokens, walks of any number, and whoever
moves the cursor by hand. They leave it anywhere, in the middle of a command or far behind the last
byte, and with the end seen or not. To read all tokens is to go back to the first byte and to forget
the end. Nothing else of a history could matter, because a cursor in memory has nothing else that
changes (`Input.IsOn`): every operation keeps this, whether or not it is refused
(`Shared.isOn_after`).

So all tokens and all commands are read as by a cursor that has just been set on the bytes
(`readAll_afresh`).
-/

namespace LabelPress.Input

open Cursor (Reading inMemory left Motion)

/-- The cursor is on these bytes in memory, at some place. -/
def IsOn (bytes : Array UInt8) (c : Cursor) : Prop :=
  ∃ p ended, c = inMemory bytes p ended

variable {A B : Type} {bytes : Array UInt8} {c : Cursor} {e : Encoding}

theorem isOn_inMemory (bytes : Array UInt8) (p : Nat) (ended : Bool) :
    IsOn bytes (inMemory bytes p ended) :=
  ⟨p, ended, rfl⟩

/-! ## Single operations -/

theorem IsOn.act (hc : IsOn bytes c) (m : Motion) : IsOn bytes (c.act m) := by
  obtain ⟨p, ended, rfl⟩ := hc
  obtain ⟨q, e, hact, -⟩ := @Cursor.act_inMemory bytes p ended m
  exact ⟨q, e, hact⟩

theorem IsOn.next (hc : IsOn bytes c) : IsOn bytes (left c.next) := hc.act .next

theorem IsOn.peek (hc : IsOn bytes c) : IsOn bytes (left c.peek) := hc.act .peek

theorem IsOn.move (hc : IsOn bytes c) (d : Int) : IsOn bytes (left (c.move d)) := hc.act (.move d)

theorem IsOn.rewind (hc : IsOn bytes c) : IsOn bytes (left c.rewind) := hc.act .rewind

theorem IsOn.position (hc : IsOn bytes c) : IsOn bytes (left c.position) := by
  obtain ⟨p, ended, rfl⟩ := hc
  exact isOn_inMemory bytes p ended

/-- One operation after another, on the cursor that the first one leaves. -/
theorem IsOn.bind {x : Reading A} {f : A → Reading B} (hx : IsOn bytes (left (x c)))
    (hf : ∀ a d, IsOn bytes d → IsOn bytes (left (f a d))) : IsOn bytes (left ((x >>= f) c)) := by
  simp only [Bind.bind, EStateM.bind]
  revert hx
  cases x c with
  | ok a d => exact hf a d
  | error fault d => exact id

/-- What a reading left is where the next one goes on. -/
theorem IsOn.left_of_eq {x : Reading A} {r : EStateM.Result InputFault Cursor A}
    (hx : IsOn bytes (left (x c))) (h : x c = r) : IsOn bytes (left r) :=
  h ▸ hx

/-! ## Tokens -/

/-- White space is passed on the same bytes, by induction along the loop. -/
theorem IsOn.skipSpaceFrom (hc : IsOn bytes c) : IsOn bytes (left (skipSpaceFrom c)) := by
  fun_induction Input.skipSpaceFrom c with
  | case1 c fault d hp | case2 c d hp | case5 c b d hp => exact hc.peek.left_of_eq hp
  | case3 c b d hp hb fault f hm => exact ((hc.peek.left_of_eq hp).move 1).left_of_eq hm
  | case4 c b d hp hb f hm ih => exact ih (((hc.peek.left_of_eq hp).move 1).left_of_eq hm)

/-- Reading up to the next mark is a row of steps, each of which stays on the bytes. -/
theorem IsOn.readBodyFrom (command : Array UInt8) (hc : IsOn bytes c) :
    IsOn bytes (left (readBodyFrom command c)) := by
  fun_induction Input.readBodyFrom command c with
  | case1 command c fault d hp | case2 command c d hp | case3 command c b d hp =>
    exact hc.peek.left_of_eq hp
  | case4 command c b d hp hb hs fault f hm =>
    exact ((hc.peek.left_of_eq hp).move 1).left_of_eq hm
  | case5 command c b d hp hb hs f hm ih =>
    exact ih (((hc.peek.left_of_eq hp).move 1).left_of_eq hm)
  | case6 command c b d hp hb hs fault f hn | case7 command c b d hp hb hs f hn =>
    exact (hc.peek.left_of_eq hp).next.left_of_eq hn
  | case8 command c b d hp hb hs b' f hn ih =>
    exact ih ((hc.peek.left_of_eq hp).next.left_of_eq hn)

/-- Whether the bytes could be decoded does not matter to the cursor. -/
theorem IsOn.readCommand (e : Encoding) (hc : IsOn bytes c) :
    IsOn bytes (left (readCommand e c)) := by
  unfold Input.readCommand
  refine .bind hc.position fun start d hd => .bind hd.next fun mark f hf => ?_
  refine .bind (hf.readBodyFrom #[]) fun body g hg => ?_
  cases e.decode (mark.toList ++ body.toList) <;> exact hg

/-- A token is white space and a command. -/
theorem IsOn.readToken (e : Encoding) (hc : IsOn bytes c) : IsOn bytes (left (readToken e c)) := by
  unfold Input.readToken
  refine .bind hc.skipSpaceFrom fun _ d hd => .bind hd.peek fun b f hf => ?_
  cases b with
  | none => exact hf
  | some b =>
    simp only
    split
    · exact hf.readCommand e
    · exact .bind hf.position fun start g hg => hg

/-- All tokens are read one after another. -/
theorem IsOn.readRestFrom (e : Encoding) (hc : IsOn bytes c) :
    IsOn bytes (left (readRestFrom e c)) := by
  fun_induction Input.readRestFrom e c with
  | case1 c fault d ht | case2 c d ht => exact (hc.readToken e).left_of_eq ht
  | case3 c t d ht hne fault f hrest ih =>
    exact (ih ((hc.readToken e).left_of_eq ht)).left_of_eq hrest
  | case4 c t d ht hne ts f hrest ih =>
    have hf : IsOn bytes f := (ih ((hc.readToken e).left_of_eq ht)).left_of_eq hrest
    exact hf

theorem IsOn.readAll (e : Encoding) (hc : IsOn bytes c) : IsOn bytes (left (readAll e c)) :=
  .bind hc.rewind fun _ _ hd => hd.readRestFrom e

/-- A walk moves the cursor by reading a token, and by going back before it reads the first one. -/
theorem IsOn.step (e : Encoding) (w : Walk) (hc : IsOn bytes c) :
    IsOn bytes (left (w.step e c).2) := by
  have hread {d : Cursor} (hd : IsOn bytes d) : IsOn bytes (left (Walk.step e .running d).2) := by
    have htoken := hd.readToken e
    unfold Walk.step
    revert htoken
    simp only
    cases Input.readToken e d with
    | error fault f => exact id
    | ok t f =>
      intro hf
      simp only
      split <;> exact hf
  -- a walk that begins afresh rewinds first, and an ended one asks nothing
  cases w with
  | running => exact hread hc
  | ended => exact hc
  | fresh =>
    have hback := hc.rewind
    unfold Walk.step
    revert hback
    simp only
    cases c.rewind with
    | error fault f => exact id
    | ok _ f => exact hread

/-! ## Histories -/

/-- A cursor and the walks that share it. -/
structure Shared where
  cursor : Cursor
  walks : List Walk := []

/-- What can be done with a cursor that is shared, short of closing it. Tokens may be read in any
encoding, and a walk may begin where the cursor stands or with the first byte. -/
inductive Use where
  | motion (m : Motion)
  | token (e : Encoding)
  | all (e : Encoding)
  /-- One more walk. -/
  | walk (w : Walk)
  /-- The next item of a walk. -/
  | item (e : Encoding) (n : Nat)

namespace Shared

/-- What is left of a use, whatever came of it. -/
def act (s : Shared) : Use → Shared
  | .motion m => { s with cursor := s.cursor.act m }
  | .token e => { s with cursor := left (readToken e s.cursor) }
  | .all e => { s with cursor := left (readAll e s.cursor) }
  | .walk w => { s with walks := s.walks ++ [w] }
  | .item e n =>
    match s.walks[n]? with
    | none => s
    | some w =>
      { cursor := left (w.step e s.cursor).2, walks := s.walks.set n (w.step e s.cursor).1 }

def after (history : List Use) (s : Shared) : Shared :=
  history.foldl act s

variable {s : Shared}

/-- No use of a shared cursor takes it off its bytes, whichever walk asks. -/
theorem isOn_act (hs : IsOn bytes s.cursor) (use : Use) : IsOn bytes (s.act use).cursor := by
  cases use with
  | motion m => exact hs.act m
  | token e => exact hs.readToken e
  | all e => exact hs.readAll e
  | walk w => exact hs
  | item e n =>
    simp only [act]
    split
    · exact hs
    · next w _ => exact hs.step e w

/-- No use leads to other bytes. -/
theorem isOn_after (hs : IsOn bytes s.cursor) (history : List Use) :
    IsOn bytes (s.after history).cursor := by
  induction history generalizing s with
  | nil => exact hs
  | cons use history ih => exact ih (isOn_act hs use)

end Shared

/-- Wherever the cursor stands, all is read from the first byte on. -/
theorem readAll_of_isOn (e : Encoding) (hc : IsOn bytes c) :
    readAll e c = readRest e (inMemory bytes 0 false) := by
  obtain ⟨p, ended, rfl⟩ := hc
  exact bind_of_ok (Cursor.rewind_inMemory bytes p ended)

/-- To read everything does not depend on what was read before. Whatever has been done with a
cursor on bytes in memory and with any walks on it, from wherever it was set and whatever came of
each use: all tokens and all commands are read, or there is the same fault, as by a cursor that is
set anew on the same bytes. They are those of the bytes from the first one on. A fault is that no
command stands where one has to, or is what the codec says of bytes that it is given; with the codec of
a character set it is one of what is written there. -/
theorem readAll_afresh (e : Encoding) (bytes : Array UInt8) (start again : Nat) (walks : List Walk)
    (history : List Use) :
    ∃ c new, Cursor.open (.inMemory bytes start) = .ok c (.inMemory bytes start) ∧
      Cursor.open (.inMemory bytes again) = .ok new (.inMemory bytes again) ∧
      let used := (Shared.after history ⟨c, walks⟩).cursor
      readAll e used = readAll e new ∧ Reader.commands ⟨used, e⟩ = Reader.commands ⟨new, e⟩ ∧
        answer (readAll e used) = tokens e 0 bytes.toList ∧
        ∀ fault, answer (readAll e used) = .error fault →
          ((∃ q, fault = .stray q) ∨
            ∃ piece q x, e.decode piece = .error x ∧ fault = .ofCodec q e.name x) ∧
          ∀ set : Charset, e.codec = set.codec → (Fault.input fault).OfLabel := by
  refine ⟨inMemory bytes start false, inMemory bytes again false, rfl, rfl, ?_⟩
  intro used
  have hused : IsOn bytes used := Shared.isOn_after (isOn_inMemory bytes start false) history
  -- reading all begins with rewinding, so it forgets where the cursor was
  have hall : readAll e used = readAll e (inMemory bytes again false) := by
    rw [readAll_of_isOn e hused, readAll_of_isOn e (isOn_inMemory bytes again false)]
  have htokens := answer_readAll_inMemory e bytes again false
  refine ⟨hall, ?_, hall ▸ htokens, fun fault hfault => ?_⟩
  · unfold Reader.commands
    simp only [hall]
  · rw [hall, htokens] at hfault
    exact ⟨fault_of_tokens hfault, fun set hcodec => ofLabel_of_tokens hcodec hfault⟩

end LabelPress.Input
