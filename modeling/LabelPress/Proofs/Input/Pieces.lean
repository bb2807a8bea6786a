import LabelPress.Proofs.Charset.Code
import LabelPress.Proofs.Input.InMemory
import Mathlib.Data.List.SplitBy
import Mathlib.Data.List.TakeWhile

/-!
# Reading bytes in memory, piece by piece

Bytes in memory are cut before every mark, and each piece is one command: `tokens` says so without a
cursor, and `answer_readAll_inMemory` that reading all commands gives just these tokens, from
whatever position and with whatever the cursor remembers.

The step behind it comes in three cases, which also say where the cursor stands afterwards:

* `readToken_of_space`: at the end, if there is nothing but white space;
* `readToken_of_stray`: before a byte that is no mark;
* `readToken_of_mark`: before the next mark or at the end, whether or not the command can be decoded.
-/

namespace LabelPress.Input

open Cursor (inMemory)

/-! ## Cutting before every mark -/

theorem drop_length_takeWhile {A : Type} (p : A → Bool) (l : List A) :
    l.drop (l.takeWhile p).length = l.dropWhile p := by
  have h : (l.takeWhile p ++ l.dropWhile p).drop (l.takeWhile p).length = l.dropWhile p :=
    List.drop_left
  rwa [List.takeWhile_append_dropWhile] at h

/-- What stays after the items that pass begins with one that does not. -/
theorem head_of_dropWhile {A : Type} {p : A → Bool} {l : List A} {a : A} {rest : List A}
    (h : l.dropWhile p = a :: rest) : p a = false := by
  have := List.head?_dropWhile_not p l
  rw [h] at this
  simpa using this

/-- What follows does not matter for the items in front that pass, if one behind them does not. -/
theorem span_append {A : Type} {p : A → Bool} {l : List A} {a : A} {rest : List A}
    (h : l.dropWhile p = a :: rest) (m : List A) :
    (l ++ m).takeWhile p = l.takeWhile p ∧ (l ++ m).dropWhile p = a :: (rest ++ m) := by
  have hsplit := congrArg List.length (List.takeWhile_append_dropWhile (p := p) (l := l))
  rw [h, List.length_append, List.length_cons] at hsplit
  rw [List.takeWhile_append, List.dropWhile_append, h, if_neg (by omega)]
  exact ⟨rfl, rfl⟩

theorem of_mem_head_dropWhile {A : Type} {p : A → Bool} {l : List A} :
    ∀ a ∈ (l.dropWhile (!p ·)).head?, p a = true := by
  intro a ha
  obtain ⟨rest, hrest⟩ := List.head?_eq_some_iff.1 ha
  simpa using head_of_dropWhile hrest

theorem isChain_cons {A : Type} {p : A → Bool} {l : List A} (a : A) (h : ∀ x ∈ l, p x = true) :
    (a :: l).IsChain fun _ x => p x = true := by
  induction l generalizing a with
  | nil => exact .singleton a
  | cons b l ih =>
    have hb : p b = true := h b List.mem_cons_self
    exact .cons_cons hb (ih b fun x hx => h x (List.mem_cons_of_mem b hx))

/-- The first piece reaches up to the next item that is to begin a piece. -/
theorem splitBy_cons {A : Type} (p : A → Bool) (a : A) (l : List A) :
    (a :: l).splitBy (fun _ x => p x) =
      (a :: l.takeWhile p) :: (l.dropWhile p).splitBy (fun _ x => p x) := by
  have hchain : (a :: l.takeWhile p).IsChain fun _ x => p x = true :=
    isChain_cons a fun x hx => List.mem_takeWhile_imp hx
  have hfirst := List.splitBy_of_isChain (r := fun _ x => p x) (List.cons_ne_nil a _) hchain
  have hsplit : a :: l = (a :: l.takeWhile p) ++ l.dropWhile p := by
    rw [List.cons_append, List.takeWhile_append_dropWhile]
  cases hrest : l.dropWhile p with
  | nil =>
    rw [hrest, List.append_nil] at hsplit
    rw [hsplit, hfirst, ← hsplit, List.splitBy_nil]
  | cons b rest =>
    have hb : p b = false := head_of_dropWhile hrest
    rw [hsplit, hrest, List.splitBy_append_cons rest (fun _ _ => hb), hfirst]
    rfl

/-- If the first item begins a piece, every piece is an item that does, with others behind it that
do not. -/
theorem exists_of_mem_splitBy {A : Type} {p : A → Bool} {l : List A}
    (h : ∀ a ∈ l.head?, p a = false) :
    ∀ piece ∈ l.splitBy fun _ x => p x,
      ∃ a body, piece = a :: body ∧ p a = false ∧ ∀ x ∈ body, p x = true := by
  -- by induction on the length: a piece is followed by the rest from the next such item on
  induction hn : l.length using Nat.strongRecOn generalizing l with
  | _ n ih =>
    cases l with
    | nil => simp
    | cons a l =>
      have hless : (l.dropWhile p).length < n := by
        have hle := (List.dropWhile_suffix (l := l) p).length_le
        rw [List.length_cons] at hn
        omega
      have hrest : ∀ b ∈ (l.dropWhile p).head?, p b = false := by
        intro b hb
        obtain ⟨rest, hrest⟩ := List.head?_eq_some_iff.1 hb
        exact head_of_dropWhile hrest
      rw [splitBy_cons, List.forall_mem_cons]
      exact ⟨⟨a, _, rfl, h a rfl, fun x hx => List.mem_takeWhile_imp hx⟩, ih _ hless hrest rfl⟩

/-- Bytes cut before every mark. -/
def pieces (bytes : List UInt8) : List (List UInt8) :=
  bytes.splitBy fun _ b => !isMark b

theorem pieces_cons (b : UInt8) (rest : List UInt8) :
    pieces (b :: rest) =
      (b :: rest.takeWhile (!isMark ·)) :: pieces (rest.dropWhile (!isMark ·)) :=
  splitBy_cons (fun b => !isMark b) b rest

/-! ## What a piece says -/

/-- What is kept of a piece: its mark, and the bytes behind it without the white space that does not
count. -/
def kept : List UInt8 → List UInt8
  | [] => []
  | mark :: body => mark :: (sift #[] body).toList

/-- The token of a piece that stands at a position. -/
def pieceToken (encoding : Encoding) (position : Nat) (piece : List UInt8) :
    Except InputFault Text :=
  match encoding.decode (kept piece) with
  | .ok t => .ok t
  | .error fault => .error (.ofCodec (position + 1) encoding.name fault)

/-- The tokens of pieces, the first of which stands at a position. -/
def pieceTokens (encoding : Encoding) : Nat → List (List UInt8) → Except InputFault (List Text)
  | _, [] => .ok []
  | position, piece :: rest =>
    match pieceToken encoding position piece with
    | .error fault => .error fault
    | .ok t =>
      match pieceTokens encoding (position + piece.length) rest with
      | .error fault => .error fault
      | .ok ts => .ok (t :: ts)

/-- The tokens of bytes, the first of which stands at a position: white space in front is passed,
and a mark has to follow. -/
def tokens (encoding : Encoding) (position : Nat) (bytes : List UInt8) :
    Except InputFault (List Text) :=
  let start := position + (bytes.takeWhile isSpace).length
  match bytes.dropWhile isSpace with
  | [] => .ok []
  | b :: rest =>
    if isMark b then pieceTokens encoding start (pieces (b :: rest)) else .error (.stray (start + 1))

theorem isMark_iff {b : UInt8} : isMark b = true ↔ b = 0x5e ∨ b = 0x7e := by
  simp [isMark]

/-- From a mark on, or at the end, no white space is passed. -/
theorem tokens_of_mark {e : Encoding} {p : Nat} {bytes : List UInt8}
    (h : ∀ b ∈ bytes.head?, isMark b = true) : tokens e p bytes = pieceTokens e p (pieces bytes) := by
  cases bytes with
  | nil => rfl
  | cons b rest =>
    have hb : isMark b = true := h b rfl
    have hspace : ¬ isSpace b = true := by
      rcases isMark_iff.1 hb with rfl | rfl <;> decide
    unfold tokens
    rw [List.takeWhile_cons_of_neg hspace, List.dropWhile_cons_of_neg hspace]
    simp only [hb, if_true, List.length_nil, Nat.add_zero]

theorem pieceToken_ne_empty {e : Encoding} {p : Nat} {b : UInt8} {body : List UInt8} {t : Text}
    (hb : isMark b = true) (h : pieceToken e p (b :: body) = .ok t) : t ≠ .empty := by
  unfold pieceToken at h
  split at h
  · next ht =>
    cases h
    exact e.codec.decode_mark (isMark_iff.1 hb) ht
  · cases h

/-! ## The operations on a cursor -/

theorem bind_of_ok {σ α β : Type} {x : EStateM InputFault σ α} {f : α → EStateM InputFault σ β}
    {s t : σ} {a : α} (h : x s = .ok a t) : (x >>= f) s = f a t := by
  simp only [bind, EStateM.bind, h]

/-- What an operation answers, without the state in which it leaves things. -/
def answer {σ α : Type} : EStateM.Result InputFault σ α → Except InputFault α
  | .ok a _ => .ok a
  | .error fault _ => .error fault

/-- An answer together with the state that it leaves. -/
def leaving {σ α : Type} (x : Except InputFault α) (s : σ) : EStateM.Result InputFault σ α :=
  match x with
  | .ok a => .ok a s
  | .error fault => .error fault s

variable {bytes : Array UInt8} {p : Nat} {todo : List UInt8} {ended : Bool}

/-- The command at a mark is read up to the next mark, also if it cannot be decoded. -/
theorem readCommand_inMemory (e : Encoding) {b : UInt8} {rest : List UInt8}
    (h : bytes.toList.drop p = b :: rest) :
    readCommand e (inMemory bytes p false) =
      leaving (pieceToken e p (b :: rest.takeWhile (!isMark ·)))
        (inMemory bytes (p + 1 + (rest.takeWhile (!isMark ·)).length)
          (rest.dropWhile (!isMark ·)).isEmpty) := by
  have hbody : readBody (inMemory bytes (p + 1) false) = _ :=
    readBodyFrom_inMemory (Cursor.drop_eq_cons h).2.2
  have hplace : Cursor.position (inMemory bytes p false) = .ok p (inMemory bytes p false) := rfl
  unfold readCommand
  rw [bind_of_ok hplace, bind_of_ok (Cursor.next_of_cons h), bind_of_ok hbody]
  unfold pieceToken
  simp only [kept, Option.toList_some, List.singleton_append]
  cases e.decode (b :: (sift #[] (rest.takeWhile (!isMark ·))).toList) <;> rfl

theorem skipSpace_inMemory (h : bytes.toList.drop p = todo) (hend : ended = true → todo = []) :
    skipSpace (inMemory bytes p ended) =
      .ok () (inMemory bytes (p + (todo.takeWhile isSpace).length)
        (todo.dropWhile isSpace).isEmpty) :=
  skipSpaceFrom_inMemory h hend

/-- What is to come behind the first bytes that meet a condition. -/
theorem drop_behind (h : bytes.toList.drop p = todo) (q : UInt8 → Bool) :
    bytes.toList.drop (p + (todo.takeWhile q).length) = todo.dropWhile q := by
  rw [← List.drop_drop, h, drop_length_takeWhile]

/-- Behind the last command there is no token. -/
theorem readToken_of_space (e : Encoding) (h : bytes.toList.drop p = todo)
    (hend : ended = true → todo = []) (htodo : todo.dropWhile isSpace = []) :
    readToken e (inMemory bytes p ended) =
      .ok .empty (inMemory bytes (p + (todo.takeWhile isSpace).length) true) := by
  have hskip := skipSpace_inMemory h hend
  have hdrop := (drop_behind h isSpace).trans htodo
  unfold readToken
  rw [bind_of_ok hskip, bind_of_ok (Cursor.peek_of_nil hdrop)]
  rfl

/-- A byte that is no mark is refused where a command was expected, and not passed. -/
theorem readToken_of_stray (e : Encoding) {b : UInt8} {rest : List UInt8}
    (h : bytes.toList.drop p = todo) (hend : ended = true → todo = [])
    (htodo : todo.dropWhile isSpace = b :: rest) (hb : isMark b = false) :
    readToken e (inMemory bytes p ended) =
      .error (.stray (p + (todo.takeWhile isSpace).length + 1))
        (inMemory bytes (p + (todo.takeWhile isSpace).length) false) := by
  have hskip := skipSpace_inMemory h hend
  have hdrop := (drop_behind h isSpace).trans htodo
  rw [htodo, List.isEmpty_cons] at hskip
  unfold readToken
  rw [bind_of_ok hskip, bind_of_ok (Cursor.peek_of_cons hdrop)]
  simp only [hb, Bool.false_eq_true, if_false]
  rfl

/-- At a mark, behind white space or not, the token of the piece is read. -/
theorem readToken_of_mark (e : Encoding) {b : UInt8} {rest : List UInt8}
    (h : bytes.toList.drop p = todo) (hend : ended = true → todo = [])
    (htodo : todo.dropWhile isSpace = b :: rest) (hb : isMark b = true) :
    readToken e (inMemory bytes p ended) =
      leaving (pieceToken e (p + (todo.takeWhile isSpace).length)
          (b :: rest.takeWhile (!isMark ·)))
        (inMemory bytes
          (p + (todo.takeWhile isSpace).length + 1 + (rest.takeWhile (!isMark ·)).length)
          (rest.dropWhile (!isMark ·)).isEmpty) := by
  have hskip := skipSpace_inMemory h hend
  have hdrop := (drop_behind h isSpace).trans htodo
  rw [htodo, List.isEmpty_cons] at hskip
  unfold readToken
  rw [bind_of_ok hskip, bind_of_ok (Cursor.peek_of_cons hdrop)]
  simp only [hb, if_true]
  exact readCommand_inMemory e hdrop

/-! ## All commands -/

/-- Unfolding equation for `readRestFrom`, without the proofs that its recursion needs. -/
theorem readRestFrom_eq (e : Encoding) (c : Cursor) :
    readRestFrom e c =
      match readToken e c with
      | .error fault d => .error fault d
      | .ok t d =>
        if t = .empty then .ok [] d
        else
          match readRestFrom e d with
          | .error fault d => .error fault d
          | .ok ts d => .ok (t :: ts) d := by
  conv_lhs => rw [readRestFrom]
  split
  · next ht => rw [ht]
  · next ht =>
    rw [ht]
    simp only
    split
    · rfl
    · rfl

/-- From anywhere in bytes in memory, the tokens of the bytes to come are read. -/
theorem answer_readRestFrom_inMemory (e : Encoding) (h : bytes.toList.drop p = todo)
    (hend : ended = true → todo = []) :
    answer (readRestFrom e (inMemory bytes p ended)) = tokens e p todo := by
  -- by induction on the bytes to come, of which every command takes one at least
  induction hn : todo.length using Nat.strongRecOn generalizing p todo ended with
  | _ n ih =>
    rw [readRestFrom_eq]
    unfold tokens
    cases htodo : todo.dropWhile isSpace with
    | nil =>
      rw [readToken_of_space e h hend htodo]
      rfl
    | cons b rest =>
      by_cases hb : isMark b = true
      · -- behind the command the next mark stands, or the end
        have hstart := (drop_behind h isSpace).trans htodo
        have hnext := drop_behind (Cursor.drop_eq_cons hstart).2.2 (!isMark ·)
        have hless : (rest.dropWhile (!isMark ·)).length < n := by
          have hall := (List.dropWhile_suffix (l := todo) isSpace).length_le
          have hrest := (List.dropWhile_suffix (l := rest) (!isMark ·)).length_le
          rw [htodo, List.length_cons] at hall
          omega
        have hrest := ih _ hless hnext (fun hnil => List.isEmpty_iff.1 hnil) rfl
        rw [tokens_of_mark of_mem_head_dropWhile] at hrest
        rw [readToken_of_mark e h hend htodo hb]
        simp only [if_pos hb, pieces_cons, pieceTokens, List.length_cons]
        cases ht : pieceToken e (p + (todo.takeWhile isSpace).length)
            (b :: rest.takeWhile (!isMark ·)) with
        | error fault => rfl
        | ok t =>
          -- the token is not empty, which would end the row of tokens here
          simp only [leaving, if_neg (pieceToken_ne_empty hb ht)]
          rw [Nat.add_comm (rest.takeWhile _).length, ← Nat.add_assoc, ← hrest]
          generalize readRestFrom e _ = r
          cases r <;> rfl
      · rw [readToken_of_stray e h hend htodo (by simpa using hb)]
        simp only [if_neg hb]
        rfl

/-- All tokens of bytes in memory are read, wherever the cursor stood and whatever it
remembered. -/
theorem answer_readAll_inMemory (e : Encoding) (bytes : Array UInt8) (p : Nat) (ended : Bool) :
    answer (readAll e (inMemory bytes p ended)) = tokens e 0 bytes.toList := by
  unfold readAll
  rw [bind_of_ok (Cursor.rewind_inMemory bytes p ended)]
  exact answer_readRestFrom_inMemory e rfl (by simp)

end LabelPress.Input
