import LabelPress.Proofs.Charset.Idna
import LabelPress.Proofs.Conversion.Faults

/-!
# Sources with defects

A source may be closed, refuse to be moved or read, not say where it is, or report more bytes than it
has, from the beginning or after some moves. Reading from it never gives less than there is: the
tokens are all tokens of its bytes, or the reader says that the source failed, or it stops at the same
place at which it would have stopped anyway.

Each operation on a cursor is compared with the same operation on `Cursor.mended`, the cursor as it
would be on the same bytes in memory. `Honest` says what may come of it, and is closed under doing one
thing after another, so that it holds of the loops because it holds of single operations. The one that
matters is `Cursor.honest_next`: the end is only seen where the bytes end.
-/

namespace LabelPress

namespace Cursor

/-- The same cursor on the same bytes without defects. -/
def mended (c : Cursor) : Cursor :=
  inMemory c.source.bytes c.source.position c.atEnd

/-- All bytes of the source lie before the end by which the cursor goes. -/
def Covers (c : Cursor) : Prop :=
  c.source.bytes.size ≤ c.size

/-- What comes of an operation beside what comes of it without defects: the source failed, or the
operation was refused in both cases, or it answered the same and left the same. -/
inductive Honest {A : Type} :
    EStateM.Result InputFault Cursor A → EStateM.Result InputFault Cursor A → Prop where
  | failed (f : StreamFault) (c : Cursor) (r : EStateM.Result InputFault Cursor A) :
    Honest (.error (.stream f) c) r
  | refused (x : InputFault) (c : Cursor) : Honest (.error x c) (.error x c.mended)
  | answered (a : A) (c : Cursor) (h : c.Covers) : Honest (.ok a c) (.ok a c.mended)

variable {A B : Type} {c : Cursor}

/-- One operation after another. -/
theorem Honest.bind {x : Reading A} {f : A → Reading B} (hx : Honest (x c) (x c.mended))
    (hf : ∀ a d, x c = .ok a d → d.Covers → Honest (f a d) (f a d.mended)) :
    Honest ((x >>= f) c) ((x >>= f) c.mended) := by
  simp only [Bind.bind, EStateM.bind]
  revert hx hf
  generalize x c = r
  generalize x c.mended = s
  intro hx hf
  cases hx with
  | failed fault d => exact .failed fault d _
  | refused fault d => exact .refused fault d
  | answered a d hd => exact hf a d rfl hd

/-! ## Single operations -/

theorem honest_position (hc : c.Covers) : Honest (position c) (position c.mended) := by
  have hmended : position c.mended = .ok c.source.position c.mended := rfl
  rw [hmended]
  unfold position
  cases h : c.source.tell with
  | error e => exact .failed _ _ _
  | ok p =>
    rw [tell_eq_ok h]
    exact .answered _ _ hc

/-- A byte that is read is the one at the place, which is passed. -/
theorem read_eq_ok {s t : Source} {b : UInt8} (h : s.read = .ok (some b, t)) :
    s.bytes[s.position]? = some b ∧ t = { s with position := s.position + 1 } := by
  unfold Source.read at h
  split at h
  · cases h
  · split at h
    · cases h
    · split at h
      · next hb =>
        cases h
        exact ⟨hb, rfl⟩
      · cases h

/-- The end is seen behind all bytes only, and no byte is made up. -/
theorem honest_next (hc : c.Covers) : Honest (next c) (next c.mended) := by
  have htold : c.mended.source.tell = .ok c.source.position := rfl
  unfold next
  rw [htold]
  cases htell : c.source.tell with
  | error e => exact .failed _ _ _
  | ok p =>
    obtain rfl := tell_eq_ok htell
    simp only
    split
    · next hend =>
      have hmended : c.mended.size < c.source.position + 1 := Nat.lt_of_le_of_lt hc hend
      rw [if_pos hmended]
      exact .answered none { c with atEnd := true } hc
    · cases hread : c.source.read with
      | error e => exact .failed _ _ _
      | ok r =>
        obtain ⟨_ | b, s⟩ := r
        · -- a byte is missing that was reported to be there
          exact .failed _ _ _
        · obtain ⟨hb, rfl⟩ := read_eq_ok hread
          obtain ⟨hlt, -⟩ := Array.getElem?_eq_some_iff.1 hb
          have hbefore : ¬ c.mended.size < c.source.position + 1 := Nat.not_lt.2 hlt
          have hmended : c.mended.source.read =
              .ok (some b, .inMemory c.source.bytes (c.source.position + 1)) := by
            simp only [Source.read, mended, inMemory, Source.inMemory, hb]
            rfl
          rw [if_neg hbefore, hmended]
          exact .answered (some b) { c with source := { c.source with position := _ } } hc

/-- An open source that can be moved goes wherever there is a position. -/
theorem moveBy_of_movable {s : Source} (hleft : s.movesLeft ≠ some 0) (hopen : s.closed = false)
    (d : Int) :
    s.moveBy d =
      if (s.farthest : Int) < d ∨ d < -(Nat.pow 2 63 : Nat) then .error .tooFar
      else if s.farthest < (s.position + d).toNat then .error .tooFar
      else .ok { s with
        position := (s.position + d).toNat, movesLeft := s.movesLeft.map (· - 1) } := by
  simp only [Source.moveBy, Source.moveTo, if_neg hleft, hopen, Bool.false_eq_true, if_false]

/-- A move that is made leads where it would lead without defects, and one that goes too far is refused
there too. -/
theorem moveBy_cases (s : Source) (d : Int) :
    s.moveBy d = .error .immovable ∨ s.moveBy d = .error .closed ∨
      (s.moveBy d = .error .tooFar ∧ (Source.inMemory s.bytes s.position).moveBy d = .error .tooFar) ∨
      ∃ t, s.moveBy d = .ok t ∧ t.bytes = s.bytes ∧
        (Source.inMemory s.bytes s.position).moveBy d = .ok (.inMemory t.bytes t.position) := by
  have hmended : (Source.inMemory s.bytes s.position).moveBy d =
      if (s.farthest : Int) < d ∨ d < -(Nat.pow 2 63 : Nat) then .error .tooFar
      else if s.farthest < (s.position + d).toNat then .error .tooFar
      else .ok (.inMemory s.bytes (s.position + d).toNat) :=
    moveBy_of_movable (by simp [Source.inMemory]) rfl d
  rw [hmended]
  -- the checks are made in the order in which the source makes them
  by_cases hleft : s.movesLeft = some 0
  · exact .inl (if_pos hleft)
  by_cases hd : (s.farthest : Int) < d ∨ d < -(Nat.pow 2 63 : Nat)
  · refine .inr (.inr (.inl ⟨?_, if_pos hd⟩))
    rw [Source.moveBy, if_neg hleft, if_pos hd]
  cases hopen : s.closed with
  | true =>
    refine .inr (.inl ?_)
    rw [Source.moveBy, if_neg hleft, if_neg hd, if_pos hopen]
  | false =>
    rw [moveBy_of_movable hleft hopen, if_neg hd, if_neg hd]
    by_cases hend : s.farthest < (s.position + d).toNat
    · exact .inr (.inr (.inl ⟨if_pos hend, if_pos hend⟩))
    · exact .inr (.inr (.inr ⟨_, if_neg hend, rfl, if_neg hend⟩))

/-- A source that cannot be moved refuses, or does what a good one does. -/
theorem honest_move (d : Int) (hc : c.Covers) : Honest (move d c) (move d c.mended) := by
  have hmended : c.mended.source = .inMemory c.source.bytes c.source.position := rfl
  unfold move
  rw [hmended]
  rcases moveBy_cases c.source d with h | h | ⟨h, h'⟩ | ⟨t, h, hbytes, h'⟩
  · rw [h]
    exact .failed _ _ _
  · rw [h]
    exact .failed _ _ _
  · rw [h, h']
    exact .refused _ c
  · have hsize : c.mended.size = t.bytes.size := congrArg Array.size hbytes.symm
    have hcovers : t.bytes.size ≤ c.size := hbytes ▸ hc
    rw [h, h', hsize]
    exact .answered () { c with source := t } hcovers

/-- A look ahead is a step, and a step back unless the end has been seen. -/
theorem peek_eq_bind : peek = next >>= fun b => fun c =>
    if c.atEnd then .ok b c else (move (-1) >>= fun _ => pure b) c := by
  funext c
  simp only [peek, Bind.bind, EStateM.bind]
  cases next c with
  | error e d => rfl
  | ok b d =>
    simp only
    cases move (-1) d <;> rfl

theorem honest_peek (hc : c.Covers) : Honest (peek c) (peek c.mended) := by
  rw [peek_eq_bind]
  refine .bind (honest_next hc) fun b d _ hd => ?_
  have hend : d.mended.atEnd = d.atEnd := rfl
  simp only [hend]
  split
  · exact .answered b d hd
  · refine .bind (honest_move (-1) hd) fun _ e _ he => ?_
    exact .answered b e he

/-- To rewind is to go to the first byte, or is refused. -/
theorem honest_rewind (hc : c.Covers) : Honest (rewind c) (rewind c.mended) := by
  have hmended : rewind c.mended = .ok () (inMemory c.source.bytes 0 false) := rfl
  rw [hmended]
  unfold rewind
  simp only
  cases h : c.source.moveTo 0 with
  | error e => exact .failed _ _ _
  | ok s =>
    obtain ⟨hbytes, hposition⟩ : s.bytes = c.source.bytes ∧ s.position = 0 := by
      unfold Source.moveTo at h
      split at h
      · cases h
      · split at h <;> cases h
        exact ⟨rfl, rfl⟩
    rw [← hbytes, ← hposition]
    refine .answered () { c with source := s, atEnd := false } ?_
    unfold Covers
    rw [hbytes]
    exact hc

end Cursor

namespace Input

open Cursor (Honest Covers)

variable {c : Cursor} {e : Encoding}

/-! ## Tokens -/

/-- Skipping is written as a row of requests, so what is known of single requests carries over. -/
theorem skipSpaceFrom_eq_bind : skipSpaceFrom = Cursor.peek >>= fun
    | none => pure ()
    | some b => if isSpace b then Cursor.move 1 >>= fun _ => skipSpaceFrom else pure () := by
  funext c
  rw [skipSpaceFrom_eq]
  simp only [Bind.bind, EStateM.bind]
  cases c.peek with
  | error x d => rfl
  | ok b d =>
    cases b with
    | none => rfl
    | some b =>
      simp only
      split
      · unfold EStateM.bind
        cases d.move 1 <;> rfl
      · rfl

/-- White space is passed honestly, by induction on the bytes that are left. -/
theorem honest_skipSpaceFrom (hc : c.Covers) :
    Honest (skipSpaceFrom c) (skipSpaceFrom c.mended) := by
  -- induction on the bytes that the source says are left
  induction hn : c.size - c.source.position using Nat.strongRecOn generalizing c with
  | _ n ih =>
    rw [skipSpaceFrom_eq_bind]
    refine .bind (Cursor.honest_peek hc) fun b d hpeek hd => ?_
    cases b with
    | none => exact .answered () d hd
    | some b =>
      simp only
      split
      · refine .bind (Cursor.honest_move 1 hd) fun _ f hmove hf => ?_
        have := Cursor.peek_eq_some hpeek
        have := Cursor.move_eq_ok hmove
        exact ih _ (by omega) hf rfl
      · exact .answered () d hd

/-- Reading up to the next mark is written as a row of requests too. -/
theorem readBodyFrom_eq_bind (command : Array UInt8) : readBodyFrom command = Cursor.peek >>= fun
    | none => pure command
    | some b =>
      if isMark b then pure command
      else if isSpace b && !isFieldData command then
        Cursor.move 1 >>= fun _ => readBodyFrom command
      else Cursor.next >>= fun
        | none => pure command
        | some b => readBodyFrom (command.push b) := by
  funext c
  rw [readBodyFrom_eq]
  simp only [Bind.bind, EStateM.bind]
  cases c.peek with
  | error x d => rfl
  | ok b d =>
    cases b with
    | none => rfl
    | some b =>
      simp only
      split
      · rfl
      split
      · unfold EStateM.bind
        cases d.move 1 <;> rfl
      · unfold EStateM.bind
        cases d.next with
        | error x f => rfl
        | ok b f => cases b <;> rfl

/-- Each request is honest, so the body that is read is the one in the bytes, unless a request
failed. -/
theorem honest_readBodyFrom (command : Array UInt8) (hc : c.Covers) :
    Honest (readBodyFrom command c) (readBodyFrom command c.mended) := by
  -- the same measure: every step that goes on passes a byte
  induction hn : c.size - c.source.position using Nat.strongRecOn generalizing c command with
  | _ n ih =>
    rw [readBodyFrom_eq_bind]
    refine .bind (Cursor.honest_peek hc) fun b d hpeek hd => ?_
    cases b with
    | none => exact .answered command d hd
    | some b =>
      have := Cursor.peek_eq_some hpeek
      simp only
      split
      · exact .answered command d hd
      split
      · refine .bind (Cursor.honest_move 1 hd) fun _ f hmove hf => ?_
        have := Cursor.move_eq_ok hmove
        exact ih _ (by omega) command hf rfl
      · refine .bind (Cursor.honest_next hd) fun b f hnext hf => ?_
        cases b with
        | none => exact .answered command f hf
        | some b =>
          have := Cursor.next_eq_some hnext
          exact ih _ (by omega) (command.push b) hf rfl

theorem honest_readCommand (e : Encoding) (hc : c.Covers) :
    Honest (readCommand e c) (readCommand e c.mended) := by
  unfold readCommand
  refine .bind (Cursor.honest_position hc) fun start d _ hd => ?_
  refine .bind (Cursor.honest_next hd) fun mark f _ hf => ?_
  refine .bind (honest_readBodyFrom #[] hf) fun body g _ hg => ?_
  cases e.decode (mark.toList ++ body.toList) with
  | ok t => exact .answered t g hg
  | error fault => exact .refused _ g

theorem honest_refuse (hc : c.Covers) : Honest (refuse c) (refuse c.mended) := by
  unfold refuse
  refine .bind (Cursor.honest_position hc) fun start d _ _ => ?_
  exact .refused _ d

/-- A token that is read is the one in the bytes, unless a request failed. -/
theorem honest_readToken (e : Encoding) (hc : c.Covers) :
    Honest (readToken e c) (readToken e c.mended) := by
  unfold readToken
  refine .bind (honest_skipSpaceFrom hc) fun _ d _ hd => ?_
  refine .bind (Cursor.honest_peek hd) fun b f _ hf => ?_
  cases b with
  | none => exact .answered _ f hf
  | some b =>
    simp only
    split
    · exact honest_readCommand e hf
    · exact honest_refuse hf

/-- Reading one token after another is written as a row of requests too. -/
theorem readRestFrom_eq_bind (e : Encoding) : readRestFrom e = readToken e >>= fun t =>
    if t = .empty then pure [] else readRestFrom e >>= fun ts => pure (t :: ts) := by
  funext c
  rw [readRestFrom_eq]
  simp only [Bind.bind, EStateM.bind]
  cases readToken e c with
  | error x d => rfl
  | ok t d =>
    simp only
    split
    · rfl
    · unfold EStateM.bind
      cases readRestFrom e d <;> rfl

/-- All tokens that are read are those in the bytes, unless a request failed. -/
theorem honest_readRestFrom (e : Encoding) (hc : c.Covers) :
    Honest (readRestFrom e c) (readRestFrom e c.mended) := by
  induction hn : c.size - c.source.position using Nat.strongRecOn generalizing c with
  | _ n ih =>
    rw [readRestFrom_eq_bind]
    refine .bind (honest_readToken e hc) fun t d htoken hd => ?_
    by_cases ht : t = .empty
    · simp only [if_pos ht]
      exact .answered [] d hd
    · simp only [if_neg ht]
      have := readToken_eq_ok htoken ht
      refine .bind (ih _ (by omega) hd rfl) fun ts f _ hf => ?_
      exact .answered (t :: ts) f hf

/-- All tokens are read honestly. -/
theorem honest_readAll (e : Encoding) (hc : c.Covers) :
    Honest (readAll e c) (readAll e c.mended) := by
  unfold readAll
  exact .bind (Cursor.honest_rewind hc) fun _ d _ hd => honest_readRestFrom e hd

end Input

/-! ## From the source to the commands -/

namespace Cursor

/-- A cursor that can be set on a source covers its bytes. -/
theorem open_cases (s : Source) :
    (∃ f t, Cursor.open s = .error (.stream f) t) ∨
      ∃ c, Cursor.open s = .ok c c.source ∧ c.source.bytes = s.bytes ∧ c.Covers := by
  have hmoved {t u : Source} {p : Nat} (h : t.moveTo p = .ok u) : u.bytes = t.bytes := by
    unfold Source.moveTo at h
    split at h
    · cases h
    · split at h <;> cases h
      rfl
  -- each of the five requests may be refused; none of them changes the bytes
  unfold Cursor.open
  simp only
  split
  · exact .inl ⟨_, _, rfl⟩
  split
  · exact .inl ⟨_, _, rfl⟩
  split
  · exact .inl ⟨_, _, rfl⟩
  split
  · exact .inl ⟨_, _, rfl⟩
  next hend =>
    split
    · exact .inl ⟨_, _, rfl⟩
    · next u hstart =>
      have hbytes : u.bytes = s.bytes := (hmoved hstart).trans (hmoved hend)
      refine .inr ⟨_, rfl, hbytes, ?_⟩
      show u.bytes.size ≤ s.bytes.size + s.surplus
      rw [hbytes]
      exact Nat.le_add_right _ _

end Cursor

namespace Reader

/-- The tokens that a cursor set anew on a source reads. -/
def tokensOf (e : Encoding) (s : Source) : Except Fault (List Text) :=
  match Cursor.open s with
  | .error fault _ => .error (.input fault)
  | .ok c _ => (Input.answer (Input.readAll e c)).mapError .input

/-- The commands that a reader made anew on a source reads. -/
def commandsOf (library : Codec.Library) (name : Text) (s : Source) : Except Fault (List Command) :=
  match ofSource library name s with
  | .error fault _ => .error fault
  | .ok r _ => r.commands.2

/-- What may come of reading where reading without defects gives `whole`: all of it, the same fault of
what is written, the same failure of the codec, or the news that the source failed. -/
inductive Intact {A : Type} (whole : Except Fault A) : Except Fault A → Prop where
  | complete (a : A) (h : whole = .ok a) : Intact whole (.ok a)
  | stray (p : Nat) (h : whole = .error (.input (.stray p))) :
    Intact whole (.error (.input (.stray p)))
  | undecodable (p : Nat) (encoding reason : String)
    (h : whole = .error (.input (.undecodable p encoding reason))) :
    Intact whole (.error (.input (.undecodable p encoding reason)))
  | codec (message : String) (h : whole = .error (.input (.codec message))) :
    Intact whole (.error (.input (.codec message)))
  | failed (f : StreamFault) : Intact whole (.error (.input (.stream f)))

theorem Intact.map {A B : Type} {x y : Except Fault A} (h : Intact x y) (f : A → B) :
    Intact (x.map f) (y.map f) := by
  cases h with
  | complete a h => exact .complete (f a) (by rw [h]; rfl)
  | stray p h => exact .stray p (by rw [h]; rfl)
  | undecodable p encoding reason h => exact .undecodable p encoding reason (by rw [h]; rfl)
  | codec message h => exact .codec message (by rw [h]; rfl)
  | failed fault => exact .failed fault

/-- Commands are read from a source as its tokens are. -/
theorem commandsOf_eq {library : Codec.Library} {name : Text} {e : Encoding}
    (hname : Encoding.ofName library name = .ok e) (s : Source) :
    commandsOf library name s = (tokensOf e s).map (List.map Command.parse) := by
  unfold commandsOf tokensOf ofSource encodingOf
  rw [hname]
  simp only
  cases Cursor.open s with
  | error fault t => rfl
  | ok c t =>
    simp only [commands]
    cases Input.readAll e c <;> rfl

theorem tokensOf_inMemory (e : Encoding) (bytes : Array UInt8) (p : Nat) :
    tokensOf e (.inMemory bytes p) = (Input.tokens e 0 bytes.toList).mapError .input := by
  have hopen : Cursor.open (.inMemory bytes p) =
      .ok (Cursor.inMemory bytes p false) (.inMemory bytes p) := rfl
  unfold tokensOf
  rw [hopen]
  simp only [Input.answer_readAll_inMemory]

/-- Whatever a source does wrong, its tokens are those of its bytes, or a fault of its own ends
them. -/
theorem intact_tokensOf (e : Encoding) (s : Source) :
    Intact ((Input.tokens e 0 s.bytes.toList).mapError .input) (tokensOf e s) := by
  unfold tokensOf
  rcases Cursor.open_cases s with ⟨f, t, hopen⟩ | ⟨c, hopen, hbytes, hc⟩
  · rw [hopen]
    exact .failed f
  · have hwhole : Input.answer (Input.readAll e c.mended) = Input.tokens e 0 s.bytes.toList := by
      rw [← hbytes]
      exact Input.answer_readAll_inMemory e _ _ _
    rw [hopen, ← hwhole]
    simp only
    have hread := Input.honest_readAll e hc
    revert hwhole hread
    generalize Input.readAll e c = r
    generalize Input.readAll e c.mended = r'
    intro hwhole hread
    cases hread with
    | failed f d => exact .failed f
    | answered ts d => exact .complete ts rfl
    | refused x d =>
      -- what stops the reader also without defects is what is written, or the codec
      obtain ⟨q, rfl⟩ | ⟨piece, q, y, -, rfl⟩ := Input.fault_of_tokens hwhole.symm
      · exact .stray q rfl
      · cases y with
        | refused reason => exact .undecodable q e.name reason rfl
        | failed message => exact .codec message rfl

/-- A source that fails never passes for a shorter one. Whatever is wrong with a source, and wherever
it stands, the tokens and the commands that are read from it are those of all its bytes, or the reader
says that the source failed, or it stops where it would also have stopped without defects, also when
it is the codec that fails. This holds of a source that is closed, that cannot be moved, read or
located, that stops moving at some time, and of one that reports more bytes than it has. -/
theorem commandsOf_intact {library : Codec.Library} {name : Text} {e : Encoding}
    (hname : Encoding.ofName library name = .ok e) (s : Source) (p : Nat) :
    tokensOf e (.inMemory s.bytes p) = (Input.tokens e 0 s.bytes.toList).mapError .input ∧
      Intact (tokensOf e (.inMemory s.bytes p)) (tokensOf e s) ∧
      Intact (commandsOf library name (.inMemory s.bytes p)) (commandsOf library name s) := by
  have hwhole := tokensOf_inMemory e s.bytes p
  have htokens := intact_tokensOf e s
  rw [← hwhole] at htokens
  refine ⟨hwhole, htokens, ?_⟩
  rw [commandsOf_eq hname, commandsOf_eq hname]
  exact htokens.map _

/-- Beside the bytes `^XA` in memory, a source that reports five bytes for them and can be moved nine
times. -/
theorem commandsOf_intact_surplus :
    let s : Source := { Source.inMemory "^XA".toUTF8.data 1 with surplus := 2, movesLeft := some 9 }
    Encoding.ofName .standard "utf-8" = .ok .standard ∧
      Intact (tokensOf .standard (.inMemory s.bytes 0)) (tokensOf .standard s) ∧
      Intact (commandsOf .standard "utf-8" (.inMemory s.bytes 0))
        (commandsOf .standard "utf-8" s) := by
  intro s
  have hname := Encoding.ofName_standard .standard
  exact ⟨hname, (commandsOf_intact hname s 0).2⟩

end Reader

/-! ## Codecs that fail

A source that only reports more bytes than it has is read like its bytes up to the next mark. So it
does not keep a codec from failing on the first token. -/

namespace Cursor

/-- A cursor on a source that reports more bytes than it has, and has no other defect. -/
def oversized (bytes : Array UInt8) (surplus p : Nat) : Cursor :=
  { source := { Source.inMemory bytes p with surplus }, size := bytes.size + surplus }

variable {bytes : Array UInt8} {surplus p : Nat} {b : UInt8} {rest : List UInt8}

/-- A source that is said to hold more than it does gives its bytes as long as there are some. -/
theorem next_oversized (h : bytes.toList.drop p = b :: rest) :
    next (oversized bytes surplus p) = .ok (some b) (oversized bytes surplus (p + 1)) := by
  obtain ⟨hlt, hb, -⟩ := drop_eq_cons h
  have hread : (oversized bytes surplus p).source.read =
      .ok (some b, (oversized bytes surplus (p + 1)).source) := by
    simp only [Source.read, oversized, Source.inMemory, hb]
    rfl
  have hbefore : ¬ (oversized bytes surplus p).size < p + 1 := by
    show ¬ bytes.size + surplus < p + 1
    omega
  exact next_of_read rfl hbefore hread

/-- They may be looked at as well. -/
theorem peek_oversized (h : bytes.toList.drop p = b :: rest) :
    peek (oversized bytes surplus p) = .ok (some b) (oversized bytes surplus p) := by
  have hlt := (drop_eq_cons h).1
  refine peek_of_next_move (next_oversized h) rfl ?_
  let s := (oversized bytes surplus (p + 1)).source
  have hfar : bytes.size ≤ s.farthest := Nat.le_max_right _ _
  have hplace : (s.position + (-1 : Int)).toNat = p := by
    show ((p + 1 : Nat) + (-1 : Int)).toNat = p
    omega
  have hlow : -(Nat.pow 2 63 : Nat) ≤ (-1 : Int) := by decide
  have hnear : ¬ ((s.farthest : Int) < -1 ∨ (-1 : Int) < -(Nat.pow 2 63 : Nat)) := by omega
  have hback : s.moveBy (-1) = .ok (oversized bytes surplus p).source := by
    rw [moveBy_of_movable (by simp [s, oversized, Source.inMemory]) rfl, hplace, if_neg hnear,
      if_neg (show ¬ s.farthest < p by omega)]
    rfl
  unfold move
  rw [show (oversized bytes surplus (p + 1)).source = s from rfl, hback]
  rfl

end Cursor

namespace Input

open Cursor (oversized)

variable {bytes : Array UInt8} {surplus p : Nat} {rest : List UInt8}

/-- Bytes without white space are all kept, up to a mark. -/
theorem readBodyFrom_oversized {m : UInt8} (hm : isMark m = true) {body : List UInt8}
    (hbody : ∀ b ∈ body, isMark b = false ∧ isSpace b = false) (command : Array UInt8)
    (h : bytes.toList.drop p = body ++ m :: rest) :
    readBodyFrom command (oversized bytes surplus p) =
      .ok (command ++ body.toArray) (oversized bytes surplus (p + body.length)) := by
  -- induction on the bytes up to the mark, which is reached before the end is asked for
  induction body generalizing p command with
  | nil =>
    rw [readBodyFrom_eq, Cursor.peek_oversized h]
    simp [hm]
  | cons b body ih =>
    obtain ⟨⟨hmark, hspace⟩, hbody⟩ := List.forall_mem_cons.1 hbody
    have hnext := ih hbody (command.push b) (Cursor.drop_eq_cons h).2.2
    rw [readBodyFrom_eq, Cursor.peek_oversized h]
    simp only [hmark, hspace, Bool.false_and, Bool.false_eq_true, if_false]
    rw [Cursor.next_oversized h]
    simp only [hnext, List.length_cons]
    simp [Nat.add_assoc, Nat.add_comm 1]

/-- What the codec says of the bytes of a command is reported, also when it fails. -/
theorem readToken_oversized (e : Encoding) {b m : UInt8} {body : List UInt8} {x : CodecFault}
    (hb : isMark b = true) (hm : isMark m = true)
    (hbody : ∀ b ∈ body, isMark b = false ∧ isSpace b = false)
    (h : bytes.toList.drop p = b :: (body ++ m :: rest)) (hx : e.decode (b :: body) = .error x) :
    readToken e (oversized bytes surplus p) = .error (.ofCodec (p + 1) e.name x)
      (oversized bytes surplus (p + 1 + body.length)) := by
  have hspace : isSpace b = false := by
    rcases isMark_iff.1 hb with rfl | rfl <;> decide
  have hskip : skipSpace (oversized bytes surplus p) = .ok () (oversized bytes surplus p) := by
    rw [skipSpace, skipSpaceFrom_eq, Cursor.peek_oversized h]
    simp [hspace]
  have hread : readBody (oversized bytes surplus (p + 1)) =
      .ok body.toArray (oversized bytes surplus (p + 1 + body.length)) := by
    rw [readBody, readBodyFrom_oversized hm hbody #[] (Cursor.drop_eq_cons h).2.2,
      Array.empty_append]
  unfold readToken
  rw [bind_of_ok hskip, bind_of_ok (Cursor.peek_oversized h)]
  simp only [hb, if_true]
  unfold readCommand
  rw [bind_of_ok (rfl : Cursor.position (oversized bytes surplus p) = .ok p _),
    bind_of_ok (Cursor.next_oversized h), bind_of_ok hread]
  simp only [Option.toList_some, List.singleton_append, hx]
  rfl

/-- Reading everything stops at the first token, if this cannot be read. -/
theorem readAll_oversized {e : Encoding} {x : InputFault} {d : Cursor}
    (h : readToken e (oversized bytes surplus 0) = .error x d) :
    readAll e (oversized bytes surplus p) = .error x d := by
  have hrewind : Cursor.rewind (oversized bytes surplus p) = .ok () (oversized bytes surplus 0) := rfl
  unfold readAll
  rw [bind_of_ok hrewind, readRest, readRestFrom_eq_bind]
  simp only [bind, EStateM.bind, h]

end Input

namespace Reader

/-- The bytes `^FDa.xn--99999999999^XZ`, read as domain names from a source that reports two bytes more:
no more is known than that the codec failed. -/
theorem commandsOf_failed :
    let s : Source := { Source.inMemory "^FDa.xn--99999999999^XZ".toUTF8.data 0 with surplus := 2 }
    Encoding.ofName .standard "idna" = .ok Charset.Idna.encoding ∧
      tokensOf Charset.Idna.encoding s = .error (.input (.codec Charset.Idna.reportedCutShort)) ∧
      commandsOf .standard "idna" s = .error (.input (.codec Charset.Idna.reportedCutShort)) := by
  intro s
  have hname := Charset.Idna.ofName_encoding
  have htokens : tokensOf Charset.Idna.encoding s =
      .error (.input (.codec Charset.Idna.reportedCutShort)) := by
    have hopen : Cursor.open s =
        .ok (Cursor.oversized s.bytes 2 0) (Cursor.oversized s.bytes 2 0).source := rfl
    have hbytes : s.bytes.toList.drop 0 = 0x5e :: ((0x46 :: 0x44 :: 0x61 ::
        Charset.Idna.point :: (Charset.Idna.mark ++ List.replicate 11 0x39)) ++
        0x5e :: [0x58, 0x5a]) := by decide
    -- the label of eleven nines asks for a digit that is not there
    have hfails : Charset.Idna.encoding.decode ([0x5e, 0x46, 0x44, 0x61] ++
        Charset.Idna.point :: (Charset.Idna.mark ++ List.replicate 11 0x39)) =
        .error (.failed Charset.Idna.reportedCutShort) :=
      Charset.Idna.decode_nines (by decide) (by decide) (by decide) 10
    have hbody : ∀ b ∈ 0x46 :: 0x44 :: 0x61 ::
        Charset.Idna.point :: (Charset.Idna.mark ++ List.replicate 11 0x39),
        Input.isMark b = false ∧ Input.isSpace b = false := by decide +kernel
    have hread : Input.readToken _ (Cursor.oversized s.bytes 2 0) = _ :=
      Input.readToken_oversized Charset.Idna.encoding (by decide) (by decide) hbody hbytes hfails
    unfold tokensOf
    rw [hopen]
    simp only [Input.readAll_oversized hread]
    rfl
  refine ⟨hname, htokens, ?_⟩
  rw [commandsOf_eq hname, htokens]
  rfl

end Reader

end LabelPress
