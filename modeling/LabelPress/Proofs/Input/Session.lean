import LabelPress.Input.Walk
import LabelPress.Proofs.Charset.Idna
import LabelPress.Proofs.Input.Lookahead
import LabelPress.Proofs.Input.Pieces

/-!
# One answer for every mark

Tokens can be read one by one, and they can be taken from a walk. Both move the same cursor, so it does
not matter who asks: the commands of the marks are answered for one after another, each of them once,
whether or not it can be decoded, and even if the codec fails over it. An answer leaves the cursor before the next mark, and the pieces that
are passed make up all bytes behind the white space in front.

* `readToken_of_ahead`: what one reading does, where these marks lie ahead;
* `Session.Awaits`: which marks lie ahead in a session, kept by everything that is asked
  (`Session.Awaits.ask`);
* `session_partitions`: what is answered in the whole of a session.

Reading always comes to an end, as its loops pass a byte in every round. That is how they are defined.
-/

namespace LabelPress.Input

open Cursor (inMemory)

/-! ## Marks and pieces -/

/-- The places of the marks among bytes. -/
def marks (bytes : List UInt8) : List Nat :=
  bytes.findIdxs isMark

/-- The bytes of the command whose mark stands at a place. -/
def pieceAt (bytes : List UInt8) (p : Nat) : List UInt8 :=
  match bytes.drop p with
  | [] => []
  | b :: rest => b :: rest.takeWhile (!isMark ·)

/-- An answer about the command whose mark stands at a place: its text, or that it cannot be decoded,
with the place counted from one. If the codec of the encoding fails by itself, the answer is just what
the codec says, without a place. -/
inductive Answers (e : Encoding) (bytes : List UInt8) (p : Nat) : Except InputFault Text → Prop where
  | text {t : Text} (h : e.decode (kept (pieceAt bytes p)) = .ok t) (ht : t ≠ .empty) :
    Answers e bytes p (.ok t)
  | undecodable {reason : String}
    (h : e.decode (kept (pieceAt bytes p)) = .error (.refused reason)) :
    Answers e bytes p (.error (.undecodable (p + 1) e.name reason))
  | failed {message : String} (h : e.decode (kept (pieceAt bytes p)) = .error (.failed message)) :
    Answers e bytes p (.error (.codec message))

variable {e : Encoding} {bytes : Array UInt8} {todo : List UInt8} {p : Nat} {ended : Bool}

/-- No mark is passed with bytes that are none. -/
theorem findIdxs_dropWhile {q : UInt8 → Bool} (hq : ∀ b, q b = true → isMark b = false)
    (todo : List UInt8) (p : Nat) :
    todo.findIdxs isMark p =
      (todo.dropWhile q).findIdxs isMark (p + (todo.takeWhile q).length) := by
  have hnone : (todo.takeWhile q).findIdxs isMark p = [] :=
    List.findIdxs_eq_nil_iff.2 fun b hb => hq b (List.mem_takeWhile_imp hb)
  conv_lhs => rw [← List.takeWhile_append_dropWhile (p := q) (l := todo)]
  rw [List.findIdxs_append, hnone, List.nil_append]

theorem pieceAt_of_drop {b : UInt8} {rest : List UInt8} (h : bytes.toList.drop p = b :: rest) :
    pieceAt bytes.toList p = b :: rest.takeWhile (!isMark ·) := by
  unfold pieceAt
  rw [h]

theorem isSpace_of_isMark {b : UInt8} (h : isMark b = true) : isSpace b = false := by
  rcases isMark_iff.1 h with rfl | rfl <;> decide

theorem isMark_of_isSpace {b : UInt8} (h : isSpace b = true) : isMark b = false := by
  rw [← Bool.not_eq_true]
  intro hmark
  rw [isSpace_of_isMark hmark] at h
  cases h

/-- The pieces of the bytes from a mark on are those at the places of their marks. -/
theorem map_pieceAt (h : bytes.toList.drop p = todo) (hmark : ∀ b ∈ todo.head?, isMark b = true) :
    (todo.findIdxs isMark p).map (pieceAt bytes.toList) = pieces todo := by
  -- by induction on the length: a piece is followed by the rest from its next mark on
  induction hn : todo.length using Nat.strongRecOn generalizing p todo with
  | _ n ih =>
    cases todo with
    | nil => rfl
    | cons b rest =>
      have hless : (rest.dropWhile (!isMark ·)).length < n := by
        have hle := (List.dropWhile_suffix (l := rest) (!isMark ·)).length_le
        rw [List.length_cons] at hn
        omega
      have hnext := drop_behind (Cursor.drop_eq_cons h).2.2 (!isMark ·)
      rw [List.findIdxs_cons, if_pos (hmark b rfl), List.map_cons, pieceAt_of_drop h, pieces_cons,
        findIdxs_dropWhile (q := (!isMark ·)) (fun b hb => by simpa using hb) rest (p + 1),
        ih _ hless hnext of_mem_head_dropWhile rfl]

/-- What a piece says is an answer about its mark. -/
theorem answers_pieceToken {b : UInt8} {rest : List UInt8} (h : bytes.toList.drop p = b :: rest)
    (hb : isMark b = true) :
    Answers e bytes.toList p (pieceToken e p (b :: rest.takeWhile (!isMark ·))) := by
  have hpiece := pieceAt_of_drop h
  rw [← hpiece]
  unfold pieceToken
  cases hdecode : e.decode (kept (pieceAt bytes.toList p)) with
  | ok t =>
    refine .text hdecode ?_
    rw [hpiece] at hdecode
    exact e.codec.decode_mark (isMark_iff.1 hb) hdecode
  | error fault =>
    cases fault with
    | refused reason => exact .undecodable hdecode
    | failed message => exact .failed hdecode

/-! ## One reading -/

/-- The cursor stands where these marks lie ahead, with nothing but white space before the first. -/
inductive Ahead (bytes : Array UInt8) : List Nat → Cursor → Prop where
  | intro {p : Nat} {ended : Bool} (hp : p ≤ bytes.size)
    (hended : ended = true → bytes.toList.drop p = [])
    (hclean : ∀ b ∈ ((bytes.toList.drop p).dropWhile isSpace).head?, isMark b = true) :
    Ahead bytes ((bytes.toList.drop p).findIdxs isMark p) (inMemory bytes p ended)

/-- All that is left is passed by as many steps as there are bytes. -/
theorem length_drop_bytes (h : bytes.toList.drop p = todo) (hp : p ≤ bytes.size) :
    p + todo.length = bytes.size := by
  rw [← h, List.length_drop, Array.length_toList]
  omega

/-- From a mark on, or at the end, the first mark ahead is where the cursor stands. -/
theorem headD_findIdxs (h : bytes.toList.drop p = todo) (hp : p ≤ bytes.size)
    (hmark : ∀ b ∈ todo.head?, isMark b = true) :
    (todo.findIdxs isMark p).headD bytes.size = p := by
  have hlength := length_drop_bytes h hp
  cases todo with
  | nil => exact hlength.symm
  | cons b rest =>
    rw [List.findIdxs_cons, if_pos (hmark b rfl)]
    rfl

/-- White space in front of a mark is no stray. -/
theorem clean_of_mark (hmark : ∀ b ∈ todo.head?, isMark b = true) :
    ∀ b ∈ (todo.dropWhile isSpace).head?, isMark b = true := by
  cases todo with
  | nil => simp
  | cons b rest =>
    have hspace : ¬ isSpace b = true := by simp [isSpace_of_isMark (hmark b rfl)]
    rw [List.dropWhile_cons_of_neg hspace]
    exact hmark

/-- Where no mark lies ahead nothing is read, and the cursor goes to the end. Otherwise the command of
the first mark is answered for, and the cursor goes to the next one or to the end. -/
theorem readToken_of_ahead (e : Encoding) {places : List Nat} {c : Cursor} (h : Ahead bytes places c) :
    (places = [] ∧ ∃ d, readToken e c = .ok .empty d ∧ Ahead bytes [] d ∧
      d.source.position = bytes.size) ∨
    ∃ q rest x d, places = q :: rest ∧ Answers e bytes.toList q x ∧ readToken e c = leaving x d ∧
      Ahead bytes rest d ∧ d.source.position = rest.headD bytes.size := by
  obtain @⟨p, ended, hp, hended, hclean⟩ := h
  generalize htodo : bytes.toList.drop p = todo at hended hclean ⊢
  have hlength := length_drop_bytes htodo hp
  have hplaces := findIdxs_dropWhile (fun _ => isMark_of_isSpace) todo p
  have hstart := drop_behind htodo isSpace
  have hsplit := congrArg List.length (List.takeWhile_append_dropWhile (p := isSpace) (l := todo))
  rw [List.length_append] at hsplit
  cases hrest : todo.dropWhile isSpace with
  | nil =>
    rw [hrest, List.length_nil, Nat.add_zero] at hsplit
    have hsize : p + (todo.takeWhile isSpace).length = bytes.size := by rw [hsplit, hlength]
    have hnone : bytes.toList.drop bytes.size = [] := List.drop_eq_nil_of_le (by simp)
    have hread := readToken_of_space e htodo hended hrest
    have hahead : Ahead bytes [] (inMemory bytes bytes.size true) := by
      have hend : Ahead bytes ((bytes.toList.drop bytes.size).findIdxs isMark bytes.size)
          (inMemory bytes bytes.size true) :=
        .intro (Nat.le_refl _) (fun _ => hnone) (by simp [hnone])
      rwa [hnone] at hend
    rw [hsize] at hread
    exact .inl ⟨by rw [hplaces, hrest]; rfl, _, hread, hahead, rfl⟩
  | cons b rest =>
    rw [hrest] at hplaces hstart hclean
    have hb : isMark b = true := hclean b rfl
    have hread := readToken_of_mark e htodo hended hrest hb
    have hstop := drop_behind (Cursor.drop_eq_cons hstart).2.2 (!isMark ·)
    rw [List.findIdxs_cons, if_pos hb,
      findIdxs_dropWhile (q := (!isMark ·)) (fun b hb => by simpa using hb) rest] at hplaces
    -- the cursor stops behind the piece, which reaches up to the next mark
    have hle : p + (todo.takeWhile isSpace).length + 1 + (rest.takeWhile (!isMark ·)).length ≤
        bytes.size := by
      have := (List.takeWhile_prefix (l := rest) (!isMark ·)).length_le
      rw [hrest, List.length_cons] at hsplit
      omega
    have hend : (rest.dropWhile (!isMark ·)).isEmpty = true → bytes.toList.drop _ = [] :=
      fun h => hstop.trans (List.isEmpty_iff.1 h)
    have hahead := Ahead.intro hle hend (hstop ▸ clean_of_mark of_mem_head_dropWhile)
    rw [hstop] at hahead
    exact .inr ⟨_, _, _, _, hplaces, answers_pieceToken hstart hb, hread, hahead,
      (headD_findIdxs hstop hle of_mem_head_dropWhile).symm⟩

/-! ## Sessions -/

/-- How a session asks for the next token: by reading it, or by taking it from its walk. -/
inductive Asking where
  | token
  | item
  deriving DecidableEq, Repr

/-- A cursor with a walk on it. -/
structure Session where
  walk : Walk
  cursor : Cursor

namespace Session

/-- A session whose walk begins where the cursor stands. -/
def begin (c : Cursor) : Session := ⟨.running, c⟩

/-- What is answered, and the session after it. The empty text says that there is no token, or none any
more in the walk. -/
def ask (e : Encoding) (how : Asking) (s : Session) : Except InputFault Text × Session :=
  match how with
  | .token =>
    let r := readToken e s.cursor
    (answer r, { s with cursor := Cursor.left r })
  | .item =>
    let (walk, r) := s.walk.step e s.cursor
    ((answer r).map (·.getD .empty), ⟨walk, Cursor.left r⟩)

/-- The session after all that is asked. -/
def after (e : Encoding) (asked : List Asking) (s : Session) : Session :=
  asked.foldl (fun s how => (s.ask e how).2) s

/-- Whether an answer is about a command, and does not just say that there is none. -/
def isAbout : Except InputFault Text → Bool
  | .ok t => !t.isEmpty
  | .error _ => true

/-- The answers about commands, in order. -/
def heard (e : Encoding) : List Asking → Session → List (Except InputFault Text)
  | [], _ => []
  | how :: asked, s =>
    if isAbout (s.ask e how).1 then (s.ask e how).1 :: heard e asked (s.ask e how).2
    else heard e asked (s.ask e how).2

/-- Asking gets as far as the cursor: it does not take from a walk that has ended. -/
def Reaches (s : Session) (how : Asking) : Prop :=
  s.walk = .ended → how = .token

/-- One answer for every mark, whoever asks for it. -/
structure Partitions (e : Encoding) (bytes : Array UInt8) (asked : List Asking) (s : Session) :
    Prop where
  /-- The marks are answered for one after another. -/
  answers : List.Forall₂ (Answers e bytes.toList)
    ((marks bytes.toList).take (s.heard e asked).length) (s.heard e asked)
  /-- The pieces that are answered for are all bytes behind white space. -/
  covers : ((marks bytes.toList).map (pieceAt bytes.toList)).flatten =
    bytes.toList.dropWhile isSpace
  /-- The cursor is before the next mark, or at the end. -/
  stands : asked ≠ [] → (s.after e asked).cursor.source.position =
    ((marks bytes.toList).drop (s.heard e asked).length).headD bytes.size
  /-- The next mark is answered for next, and there is nothing to answer behind the last. -/
  next : ∀ how, (s.after e asked).Reaches how →
    match ((marks bytes.toList).drop (s.heard e asked).length).head? with
    | some p => Answers e bytes.toList p ((s.after e asked).ask e how).1
    | none => ((s.after e asked).ask e how).1 = .ok .empty
  /-- A walk that has ended gives nothing and moves nothing. -/
  ended : ∀ how, ¬ (s.after e asked).Reaches how →
    (s.after e asked).ask e how = (.ok .empty, s.after e asked)
  /-- A walk ends with the first answer that is no token. -/
  ends : ∀ how, ((s.after e asked).ask e how).2.walk = .ended ↔ (s.after e asked).walk = .ended ∨
    (how = .item ∧ ∀ t, ((s.after e asked).ask e how).1 = .ok t → t = .empty)
  /-- All marks are answered for as soon as enough tokens have been read. -/
  complete : (marks bytes.toList).length ≤ asked.count .token →
    (s.heard e asked).length = (marks bytes.toList).length

/-- Where there is no mark at the beginning, everything that is asked is refused there. -/
structure Strays (e : Encoding) (bytes : Array UInt8) (asked : List Asking) (s : Session) :
    Prop where
  heard : ∀ x ∈ s.heard e asked, x = .error (.stray ((bytes.toList.takeWhile isSpace).length + 1))
  next : ∀ how, (s.after e asked).Reaches how →
    ((s.after e asked).ask e how).1 =
        .error (.stray ((bytes.toList.takeWhile isSpace).length + 1)) ∧
      ((s.after e asked).ask e how).2.cursor.source.position =
        (bytes.toList.takeWhile isSpace).length

variable {s : Session} {places : List Nat} {how : Asking} {asked : List Asking}

theorem after_cons (how : Asking) (asked : List Asking) (s : Session) :
    s.after e (how :: asked) = (s.ask e how).2.after e asked := List.foldl_cons ..

theorem heard_of_isAbout (h : isAbout (s.ask e how).1 = true) (asked : List Asking) :
    s.heard e (how :: asked) = (s.ask e how).1 :: (s.ask e how).2.heard e asked := if_pos h

theorem heard_of_empty (h : (s.ask e how).1 = .ok .empty) (asked : List Asking) :
    s.heard e (how :: asked) = (s.ask e how).2.heard e asked := by
  rw [heard, h]
  rfl

/-- Asking that gets as far as the cursor is reading a token, whichever way it is done. -/
theorem ask_of_readToken (hwalk : s.walk ≠ .fresh) (hreach : s.Reaches how)
    {x : Except InputFault Text} {d : Cursor} (h : readToken e s.cursor = leaving x d) :
    (s.ask e how).1 = x ∧ (s.ask e how).2.cursor = d ∧ (s.ask e how).2.walk ≠ .fresh := by
  -- a walk that is running asks for a token as everyone does
  cases how with
  | token =>
    unfold ask
    rw [h]
    cases x <;> exact ⟨rfl, rfl, hwalk⟩
  | item =>
    have hrunning : s.walk = .running := by
      cases hs : s.walk with
      | fresh => exact absurd hs hwalk
      | running => rfl
      | ended => cases hreach hs
    unfold ask Walk.step
    rw [hrunning, h]
    cases x with
    | error fault => exact ⟨rfl, rfl, Walk.noConfusion⟩
    | ok t =>
      simp only [leaving]
      split
      · next ht =>
        rw [ht]
        exact ⟨rfl, rfl, Walk.noConfusion⟩
      · exact ⟨rfl, rfl, Walk.noConfusion⟩

/-- A walk that has ended gives nothing more. -/
theorem ask_of_not_reaches (h : ¬ s.Reaches how) : s.ask e how = (.ok .empty, s) := by
  unfold Reaches at h
  obtain ⟨hended, hitem⟩ := Classical.not_imp.1 h
  cases how with
  | token => exact absurd rfl hitem
  | item =>
    unfold ask Walk.step
    obtain ⟨walk, c⟩ := s
    obtain rfl : walk = .ended := hended
    rfl

/-- A session that has these marks ahead, and stands before the first of them if its walk has ended. -/
structure Awaits (bytes : Array UInt8) (places : List Nat) (s : Session) : Prop where
  ahead : Ahead bytes places s.cursor
  walk : s.walk ≠ .fresh
  stands : s.walk = .ended → s.cursor.source.position = places.headD bytes.size

/-- Whoever asks, the first mark is answered for, or there is none. -/
theorem Awaits.ask (h : Awaits bytes places s) (hreach : s.Reaches how) :
    ∃ rest, Awaits bytes rest (s.ask e how).2 ∧
      (s.ask e how).2.cursor.source.position = rest.headD bytes.size ∧
      ((places = [] ∧ rest = [] ∧ (s.ask e how).1 = .ok .empty) ∨
        ∃ q, places = q :: rest ∧ Answers e bytes.toList q (s.ask e how).1) := by
  rcases readToken_of_ahead e h.ahead with ⟨hnil, d, hread, hahead, hplace⟩ |
    ⟨q, rest, x, d, hcons, hx, hread, hahead, hplace⟩
  · obtain ⟨hanswer, hcursor, hwalk⟩ := ask_of_readToken (x := .ok .empty) h.walk hreach hread
    refine ⟨[], ⟨hcursor ▸ hahead, hwalk, fun _ => hcursor ▸ hplace⟩, hcursor ▸ hplace,
      .inl ⟨hnil, rfl, hanswer⟩⟩
  · obtain ⟨hanswer, hcursor, hwalk⟩ := ask_of_readToken h.walk hreach hread
    refine ⟨rest, ⟨hcursor ▸ hahead, hwalk, fun _ => hcursor ▸ hplace⟩, hcursor ▸ hplace,
      .inr ⟨q, hcons, hanswer ▸ hx⟩⟩

theorem isAbout_of_answers {q : Nat} {x : Except InputFault Text}
    (h : Answers e bytes.toList q x) : isAbout x = true := by
  cases h with
  | text h ht =>
    rw [isAbout, Bool.not_eq_true', ← Bool.not_eq_true]
    exact fun hempty => ht (congrArg Text.mk (List.isEmpty_iff.1 hempty))
  | undecodable h => rfl
  | failed h => rfl

/-- What is answered for in a session are the first marks ahead, and the others are still ahead. -/
theorem Awaits.after (h : Awaits bytes places s) (asked : List Asking) :
    ∃ passed rest, places = passed ++ rest ∧
      List.Forall₂ (Answers e bytes.toList) passed (s.heard e asked) ∧
      Awaits bytes rest (s.after e asked) ∧
      (s.cursor.source.position = places.headD bytes.size ∨ asked ≠ [] →
        (s.after e asked).cursor.source.position = rest.headD bytes.size) ∧
      (rest = [] ∨ asked.count .token ≤ passed.length) := by
  -- induction on what is asked; what is left of the marks is what has not been answered yet
  induction asked generalizing s places with
  | nil =>
    exact ⟨[], places, rfl, .nil, h, fun hplace => hplace.resolve_right (· rfl), by simp⟩
  | cons how asked ih =>
    rw [after_cons]
    by_cases hreach : s.Reaches how
    · obtain ⟨next, hnext, hplace, hanswer⟩ := h.ask (e := e) hreach
      obtain ⟨passed, rest, hsplit, hheard, hafter, hstands, hcount⟩ := ih hnext
      rcases hanswer with ⟨rfl, rfl, hnone⟩ | ⟨q, rfl, hx⟩
      · -- nothing is answered any more
        obtain ⟨rfl, rfl⟩ := List.append_eq_nil_iff.1 hsplit.symm
        rw [heard_of_empty hnone]
        exact ⟨[], [], rfl, hheard, hafter, fun _ => hstands (.inl hplace), .inl rfl⟩
      · rw [heard_of_isAbout (isAbout_of_answers hx)]
        refine ⟨q :: passed, rest, by rw [hsplit]; rfl, .cons hx hheard, hafter,
          fun _ => hstands (.inl hplace), hcount.imp_right fun hle => ?_⟩
        rw [List.count_cons, List.length_cons]
        split <;> omega
    · -- the walk has ended, and stands where it ended
      obtain ⟨hended, hitem⟩ := Classical.not_imp.1 hreach
      obtain ⟨passed, rest, hsplit, hheard, hafter, hstands, hcount⟩ := ih h
      have hask := ask_of_not_reaches (e := e) hreach
      rw [heard_of_empty (congrArg Prod.fst hask), hask]
      refine ⟨passed, rest, hsplit, hheard, hafter, fun _ => hstands (.inl (h.stands hended)), ?_⟩
      rwa [List.count_cons_of_ne hitem]

/-- The walk ends with an item that is no token. -/
theorem walk_ask (hwalk : s.walk ≠ .fresh) (how : Asking) :
    (s.ask e how).2.walk = .ended ↔ s.walk = .ended ∨
      (how = .item ∧ ∀ t, (s.ask e how).1 = .ok t → t = .empty) := by
  cases how with
  | token => exact (or_iff_left fun h => nomatch h.1).symm
  | item =>
    cases hs : s.walk with
    | fresh => exact absurd hs hwalk
    | ended =>
      have hreach : ¬ s.Reaches .item := fun h => Asking.noConfusion (h hs)
      rw [ask_of_not_reaches hreach]
      exact iff_of_true hs (.inl rfl)
    | running =>
      unfold ask Walk.step
      simp only [hs, reduceCtorEq, false_or, true_and]
      cases readToken e s.cursor with
      | error fault d => exact iff_of_true rfl fun t ht => nomatch ht
      | ok t d =>
        simp only
        split
        · exact iff_of_true rfl fun u hu => (Except.ok.inj hu).symm
        · next ht => exact iff_of_false Walk.noConfusion fun h => ht (h t rfl)

/-- From a mark on, whatever is asked, the marks are answered for one after another. -/
theorem partitions_begin (e : Encoding) {bytes : Array UInt8}
    (hclean : ∀ b ∈ (bytes.toList.dropWhile isSpace).head?, isMark b = true) (asked : List Asking) :
    (begin (inMemory bytes 0 false)).Partitions e bytes asked := by
  have hbegin : Awaits bytes (marks bytes.toList) (begin (inMemory bytes 0 false)) :=
    ⟨.intro (Nat.zero_le _) (by simp) hclean, Walk.noConfusion, Walk.noConfusion⟩
  obtain ⟨passed, rest, hsplit, hheard, hafter, hstands, hcount⟩ := hbegin.after (e := e) asked
  have hlength := hheard.length_eq
  -- the marks are those answered and those left, in this order
  have hpassed : (marks bytes.toList).take
      (heard e asked (begin (inMemory bytes 0 false))).length = passed := by
    rw [hsplit, ← hlength, List.take_left]
  have hrest : (marks bytes.toList).drop
      (heard e asked (begin (inMemory bytes 0 false))).length = rest := by
    rw [hsplit, ← hlength, List.drop_left]
  refine ⟨by rwa [hpassed], ?_, fun hasked => ?_, fun how hreach => ?_,
    fun how => ask_of_not_reaches, walk_ask hafter.walk, fun hall => ?_⟩
  · -- in front of the first mark there is nothing but white space
    have hstart := drop_behind (List.drop_zero (l := bytes.toList)) isSpace
    rw [marks, findIdxs_dropWhile (fun _ => isMark_of_isSpace), map_pieceAt hstart hclean, pieces,
      List.flatten_splitBy]
  · rw [hrest]
    exact hstands (.inr hasked)
  · rw [hrest]
    obtain ⟨_, -, -, ⟨rfl, -, hnone⟩ | ⟨q, rfl, hx⟩⟩ := hafter.ask (e := e) hreach
    · exact hnone
    · exact hx
  · rw [← hlength, hsplit, List.length_append]
    rw [hsplit, List.length_append] at hall
    rcases hcount with rfl | hle
    · rfl
    · omega

/-! ### Where there is no mark -/

/-- A cursor behind which the first byte that is no white space is no mark, and stands at a place. -/
inductive Blocked (bytes : Array UInt8) (p : Nat) : Cursor → Prop where
  | intro {q : Nat} {b : UInt8} {rest : List UInt8}
    (h : (bytes.toList.drop q).dropWhile isSpace = b :: rest) (hb : isMark b = false)
    (hp : q + ((bytes.toList.drop q).takeWhile isSpace).length = p) :
    Blocked bytes p (inMemory bytes q false)

/-- In front of a stray byte every request fails at its place, and stays there. -/
theorem readToken_of_blocked (e : Encoding) {c : Cursor} (h : Blocked bytes p c) :
    ∃ d, readToken e c = .error (.stray (p + 1)) d ∧ Blocked bytes p d ∧ d.source.position = p := by
  obtain @⟨q, b, rest, hrest, hb, rfl⟩ := h
  have hread := readToken_of_stray e rfl (fun h : false = true => nomatch h) hrest hb
  have hstart := (drop_behind (rfl : bytes.toList.drop q = _) isSpace).trans hrest
  refine ⟨_, hread, ?_, rfl⟩
  -- the byte that is refused is the next one now
  have hspace : ¬ isSpace b = true := by simp [head_of_dropWhile hrest]
  have hagain : (bytes.toList.drop (q + ((bytes.toList.drop q).takeWhile isSpace).length)).dropWhile
      isSpace = b :: rest := by
    rw [hstart, List.dropWhile_cons_of_neg hspace]
  refine .intro hagain hb ?_
  rw [hstart, List.takeWhile_cons_of_neg hspace]
  rfl

/-- A session that is refused everything at a place. -/
structure Stuck (bytes : Array UInt8) (p : Nat) (s : Session) : Prop where
  blocked : Blocked bytes p s.cursor
  walk : s.walk ≠ .fresh

theorem Stuck.ask (h : Stuck bytes p s) (hreach : s.Reaches how) :
    (s.ask e how).1 = .error (.stray (p + 1)) ∧ Stuck bytes p (s.ask e how).2 ∧
      (s.ask e how).2.cursor.source.position = p := by
  obtain ⟨d, hread, hblocked, hplace⟩ := readToken_of_blocked e h.blocked
  obtain ⟨hanswer, hcursor, hwalk⟩ :=
    ask_of_readToken (x := .error (.stray (p + 1))) h.walk hreach hread
  exact ⟨hanswer, ⟨hcursor ▸ hblocked, hwalk⟩, hcursor ▸ hplace⟩

/-- So a session that is stuck stays so, and hears of nothing else. -/
theorem Stuck.after (h : Stuck bytes p s) (asked : List Asking) :
    Stuck bytes p (s.after e asked) ∧ ∀ x ∈ s.heard e asked, x = .error (.stray (p + 1)) := by
  induction asked generalizing s with
  | nil => exact ⟨h, by simp [heard]⟩
  | cons how asked ih =>
    rw [after_cons]
    by_cases hreach : s.Reaches how
    · obtain ⟨hanswer, hnext, -⟩ := h.ask (e := e) hreach
      obtain ⟨hafter, hheard⟩ := ih hnext
      rw [heard_of_isAbout (by rw [hanswer]; rfl), hanswer]
      exact ⟨hafter, List.forall_mem_cons.2 ⟨rfl, hheard⟩⟩
    · have hask := ask_of_not_reaches (e := e) hreach
      rw [heard_of_empty (congrArg Prod.fst hask), hask]
      exact ih h

theorem strays_begin (e : Encoding) {bytes : Array UInt8} {b : UInt8} {rest : List UInt8}
    (h : bytes.toList.dropWhile isSpace = b :: rest) (hb : isMark b = false)
    (asked : List Asking) : (begin (inMemory bytes 0 false)).Strays e bytes asked := by
  have hbegin : Stuck bytes (bytes.toList.takeWhile isSpace).length (begin (inMemory bytes 0 false)) :=
    ⟨.intro h hb (Nat.zero_add _), Walk.noConfusion⟩
  obtain ⟨hafter, hheard⟩ := hbegin.after (e := e) asked
  refine ⟨hheard, fun how hreach => ?_⟩
  obtain ⟨hanswer, -, hplace⟩ := hafter.ask (e := e) hreach
  exact ⟨hanswer, hplace⟩

end Session

/-- Tokens partition the bytes, in every encoding. A session begins at the first byte, and asks for
tokens in any mix of the two ways, also after faults. If the first byte that is no white space is a
mark, or there is none, then each mark is answered for once, in order, by its token, by the news that it
cannot be decoded, or by the failure of a codec that does not say so; each answer leaves the cursor
before the next mark or at the end, and behind the last one there is nothing. Any other first byte is
refused as often as a token is asked for, and never passed. -/
theorem session_partitions (e : Encoding) (bytes : Array UInt8) (asked : List Asking) :
    ∃ c, Cursor.open (.inMemory bytes 0) = .ok c (.inMemory bytes 0) ∧
      if (bytes.toList.dropWhile isSpace).head?.all isMark then
        (Session.begin c).Partitions e bytes asked
      else (Session.begin c).Strays e bytes asked := by
  refine ⟨inMemory bytes 0 false, rfl, ?_⟩
  cases hrest : bytes.toList.dropWhile isSpace with
  | nil => exact Session.partitions_begin e (by simp [hrest]) asked
  | cons b rest =>
    rw [List.head?_cons, Option.all_some]
    split
    · next hb =>
      refine Session.partitions_begin e ?_ asked
      intro x hx
      rw [hrest] at hx
      obtain rfl : b = x := Option.some.inj hx
      exact hb
    · next hb => exact Session.strays_begin e hrest (by simpa using hb) asked

/-- The bytes `^FDa.xn--99999999999`, read as domain names: the only mark is answered for neither with a
text nor with a fault that has a place. -/
theorem session_failed :
    Encoding.ofName .standard "idna" = .ok Charset.Idna.encoding ∧
      let bytes := "^FDa.xn--99999999999".toUTF8.data
      marks bytes.toList = [0] ∧
        ∃ c, Cursor.open (.inMemory bytes 0) = .ok c (.inMemory bytes 0) ∧
          ((Session.begin c).ask Charset.Idna.encoding .token).1 =
            .error (.codec Charset.Idna.reportedCutShort) := by
  refine ⟨Charset.Idna.ofName_encoding, ?_⟩
  intro bytes
  have hkept : kept bytes.toList = [0x5e, 0x46, 0x44, 0x61] ++
      Charset.Idna.point :: (Charset.Idna.mark ++ List.replicate 11 0x39) := by decide
  have hdecode : Charset.Idna.encoding.decode (kept bytes.toList) =
      .error (.failed Charset.Idna.reportedCutShort) := by
    rw [hkept]
    exact Charset.Idna.decode_nines (by decide) (by decide) (by decide) 10
  have hpiece : pieceToken Charset.Idna.encoding 0 bytes.toList =
      .error (.codec Charset.Idna.reportedCutShort) := by
    unfold pieceToken
    rw [hdecode]
    rfl
  have hmark : bytes.toList.dropWhile isSpace = 0x5e :: bytes.toList.drop 1 := by decide
  have hbody : 0x5e :: (bytes.toList.drop 1).takeWhile (!isMark ·) = bytes.toList := by decide
  have hspace : bytes.toList.takeWhile isSpace = [] := by decide
  have hstart : bytes.toList.drop 0 = bytes.toList := List.drop_zero
  -- the only piece is read from the first byte on
  have hread := readToken_of_mark Charset.Idna.encoding hstart
    (fun h : false = true => nomatch h) hmark (by decide)
  rw [hbody, hspace, List.length_nil, Nat.add_zero, hpiece] at hread
  refine ⟨by decide, inMemory bytes 0 false, rfl, ?_⟩
  simp only [Session.ask, Session.begin, hread]
  rfl

end LabelPress.Input
