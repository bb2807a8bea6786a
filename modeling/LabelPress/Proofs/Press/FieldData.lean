import LabelPress.Proofs.Input.Defects
import LabelPress.Proofs.Input.Written
import LabelPress.Proofs.Press.Take

/-!
# Field data

Field data passes a reader that drops white space, a character set, a parser that cuts at commas, and
the verb `FD`, which puts the parts together again. It comes out as it was written: a press shows the
very characters that stand between the code and the next mark, or keeps them for a pending barcode.

* `Input.tokens_append`: bytes that begin with a mark are read as they are, whatever stands in front;
* `Script.WritesField.token`: of a piece with the code of field data, nothing behind the code is lost;
* `Press.dispatch_field`: the parts between the commas are put together again;
* `Reader.field_verbatim`: all this for one field in the middle of a label.
-/

namespace LabelPress

/-! ## Bytes one after another -/

namespace Input

variable {e : Encoding} {p : Nat} {front back : List UInt8}

theorem pieces_append (front : List UInt8) (hback : ∀ b ∈ back.head?, isMark b = true) :
    pieces (front ++ back) = pieces front ++ pieces back :=
  List.splitBy_append fun _ _ b hb => by simp [hback b hb]

/-- Tokens are read piece by piece, at the places where the pieces stand. -/
theorem pieceTokens_append (ps qs : List (List UInt8)) :
    pieceTokens e p (ps ++ qs) = (do
      let ts ← pieceTokens e p ps
      let us ← pieceTokens e (p + ps.flatten.length) qs
      return ts ++ us) := by
  -- induction on the first pieces; the place of the others is counted from behind them
  induction ps generalizing p with
  | nil => cases h : pieceTokens e p qs <;> simp [pieceTokens, h] <;> rfl
  | cons piece ps ih =>
    have hplace : p + (piece :: ps).flatten.length = p + piece.length + ps.flatten.length := by
      rw [List.flatten_cons, List.length_append]
      omega
    rw [List.cons_append, pieceTokens, pieceTokens, ih, hplace]
    cases pieceToken e p piece with
    | error fault => rfl
    | ok t =>
      cases pieceTokens e (p + piece.length) ps with
      | error fault => rfl
      | ok ts => cases pieceTokens e (p + piece.length + ps.flatten.length) qs <;> rfl

/-- Bytes that begin with a mark are read as they are behind any others, if those can be read. -/
theorem tokens_append (front : List UInt8) (hback : ∀ b ∈ back.head?, isMark b = true) :
    tokens e p (front ++ back) = (do
      let ts ← tokens e p front
      let us ← tokens e (p + front.length) back
      return ts ++ us) := by
  cases hdrop : front.dropWhile isSpace with
  | nil =>
    -- nothing but white space stands in front, and the first mark ends it
    have hnone : tokens e p front = .ok [] := by
      unfold tokens
      rw [hdrop]
    have hspace : ∀ b ∈ front, isSpace b = true := List.dropWhile_eq_nil_iff.1 hdrop
    have hall : tokens e p (front ++ back) = tokens e (p + front.length) back := by
      unfold tokens
      rw [List.takeWhile_append_of_pos hspace, List.dropWhile_append_of_pos hspace,
        List.length_append, Nat.add_assoc]
    rw [hall, hnone]
    cases tokens e (p + front.length) back <;> rfl
  | cons b rest =>
    obtain ⟨htake', hdrop'⟩ := span_append hdrop back
    have hplace : p + front.length =
        p + (front.takeWhile isSpace).length + (pieces (b :: rest)).flatten.length := by
      unfold pieces
      rw [List.flatten_splitBy, ← hdrop, Nat.add_assoc, ← List.length_append,
        List.takeWhile_append_dropWhile]
    rw [tokens_of_mark hback, hplace]
    unfold tokens
    rw [htake', hdrop', hdrop]
    simp only
    by_cases hb : isMark b = true
    · rw [if_pos hb, if_pos hb, ← List.cons_append, pieces_append _ hback, pieceTokens_append]
    · rw [if_neg hb, if_neg hb]
      rfl

end Input

/-! ## The command of a field -/

namespace Script

/-- A piece with the code of field data, in either case and after either mark, and these data. White
space may stand before each letter of the code; what stands behind it belongs to the data. -/
inductive WritesField (data : List Char) : List Char → Prop where
  | intro {mark f d : Char} {before between : List Char} (hmark : isMark mark = true)
    (hcode : isFieldData f d = true) (hbefore : ∀ x ∈ before, isSpace x = true)
    (hbetween : ∀ x ∈ between, isSpace x = true) (hdata : ∀ x ∈ data, isMark x = false) :
    WritesField data (mark :: (before ++ f :: (between ++ d :: data)))

variable {data piece : List Char} {f d : Char}

/-- A question that all letters of the code answer with no. -/
theorem letters_of_isFieldData {q : Char → Bool} (hq : ['F', 'f', 'D', 'd'].any q = false)
    (h : isFieldData f d = true) : q f = false ∧ q d = false := by
  simp only [List.any_cons, List.any_nil, Bool.or_eq_false_iff] at hq
  simp only [isFieldData, Bool.and_eq_true, Bool.or_eq_true, beq_iff_eq] at h
  obtain ⟨hF, hf, hD, hd, -⟩ := hq
  obtain ⟨rfl | rfl, rfl | rfl⟩ := h
  · exact ⟨hF, hD⟩
  · exact ⟨hF, hd⟩
  · exact ⟨hf, hD⟩
  · exact ⟨hf, hd⟩

theorem isMark_of_isSpace {c : Char} (h : isSpace c = true) : isMark c = false := by
  rw [← Bool.not_eq_true]
  intro hmark
  rw [isSpace_of_isMark hmark] at h
  cases h

theorem WritesField.isPiece (h : WritesField data piece) : IsPiece piece := by
  cases h with
  | @intro mark f d before between hmark hcode hbefore hbetween hdata =>
    refine ⟨mark, _, rfl, hmark, ?_⟩
    obtain ⟨hf, hd⟩ := letters_of_isFieldData (q := isMark) (by decide) hcode
    simp only [List.forall_mem_append, List.forall_mem_cons]
    exact ⟨fun x hx => isMark_of_isSpace (hbefore x hx), hf,
      fun x hx => isMark_of_isSpace (hbetween x hx), hd, hdata⟩

/-- Behind the code everything is kept. -/
theorem WritesField.token (h : WritesField data piece) :
    ∃ mark f d, isFieldData f d = true ∧ token piece = .ofChars (mark :: f :: d :: data) := by
  cases h with
  | @intro mark f d before between hmark hcode hbefore hbetween hdata =>
    refine ⟨mark, f, d, hcode, ?_⟩
    obtain ⟨hf, hd⟩ := letters_of_isFieldData (q := isSpace) (by decide) hcode
    rw [Script.token, clean_code hbefore hf hbetween hd, if_pos hcode]

end Script

namespace Command

/-- The code of field data is the name `FD`, and what follows it is cut at commas. -/
theorem parse_field {mark f d : Char} {data : List Char} (h : Script.isFieldData f d = true) :
    parse (.ofChars (mark :: f :: d :: data)) =
      ⟨some (.char mark), "FD", splitArgs (.ofChars data)⟩ := by
  obtain ⟨hF, hD⟩ := Script.capitals_of_isFieldData h
  have hupper : Text.upper (.ofChars [f, d]) = "FD" := by
    simp only [Text.upper, Text.ofChars, List.map_cons, List.map_nil, List.flatMap_cons,
      Text.upperPoint, hF, hD]
    rfl
  refine (parse_of_code fun hfont => ?_).trans (congrArg (Command.mk _ · _) hupper)
  have hhead := (congrArg (·.points.head?) hupper).symm.trans hfont
  cases hhead

end Command

namespace Press

/-- What a press does with the data of a field: a pending barcode will show them, and the surface is
to draw them otherwise. -/
def hand (data : Text) (p : Press) : Outcome Press :=
  if p.label.isPending then .done { p with label := { p.label with content := data } }
  else (p.surface.draw (.drawText (.text data))).map fun s => { p with surface := s }

/-- A step that is one call leaves the label alone, whether or not the surface refuses the call. -/
theorem take_call (c : Call) (p : Press) :
    p.take (.call c p.label) = (p.surface.draw c).map fun s => { p with surface := s } := by
  have hevents : (Step.call c p.label).events = [.call c p.label] := rfl
  rw [take_eq, hevents]
  cases h : (p.surface.draw c).fault with
  | some x =>
    rw [play_refused h, Outcome.map_andThen_of_some h]
  | none =>
    rw [play_drawn h, Outcome.andThen_assoc, Outcome.map_andThen_of_none h]
    simp [play, Outcome.andThen, Outcome.done, relabel, Outcome.map, h, Step.call]

/-- The parts between the commas are put together again. -/
theorem dispatch_field (data : Text) (p : Press) :
    p.dispatch "FD" (Command.splitArgs data) = p.hand data := by
  have hstep : p.label.step "FD" (Command.splitArgs data) =
      Label.fieldData (Command.splitArgs data) p.label := rfl
  unfold dispatch hand
  rw [hstep, Label.fieldData, Command.joinArgs_splitArgs]
  simp only
  split
  · rfl
  · exact take_call _ p

theorem dispatchAll_append (cs ds : List Command) (p : Press) :
    dispatchAll (cs ++ ds) p = (dispatchAll cs p).andThen (dispatchAll ds) := by
  induction cs generalizing p with
  | nil => exact (Outcome.andThen_done p _).symm
  | cons c cs ih =>
    have hrest : dispatchAll (cs ++ ds) = fun q => (dispatchAll cs q).andThen (dispatchAll ds) :=
      funext ih
    rw [List.cons_append, dispatchAll, dispatchAll, Outcome.andThen_assoc, hrest]

end Press

/-! ## Whole labels -/

namespace Label

/-- What stands inside a label around a command is what stands around it, but for the two ends. -/
theorem interior_around {before after inner : List Command} {c : Command}
    (hc : isEnvelope c = false) (h : interior (before ++ c :: after) = .ok inner) :
    inner = before.drop 1 ++ c :: after.dropLast := by
  obtain ⟨hxa, hxz⟩ := isEnvelope_eq_false.1 hc
  generalize hall : before ++ c :: after = commands at h
  obtain ⟨first, last, hfirst, hlast, -⟩ := interior_eq_ok_iff.1 h
  cases before with
  | nil =>
    -- the command would have to begin the label
    cases hall
    exact absurd hfirst hxa
  | cons d before =>
    have hrest : before ++ c :: after = inner ++ [last] := (List.cons.inj hall).2
    rcases List.eq_nil_or_concat after with rfl | ⟨after, e, rfl⟩
    · -- the command would have to end the label
      obtain ⟨-, hend⟩ := List.append_inj' hrest rfl
      cases hend
      exact absurd hlast hxz
    · rw [List.concat_eq_append, ← List.cons_append, ← List.append_assoc] at hrest
      obtain ⟨rfl, -⟩ := List.append_inj' hrest rfl
      simp

end Label

namespace Reader

/-- The commands of bytes, the first of which stands at a position. -/
def commandsAt (e : Encoding) (position : Nat) (bytes : List UInt8) :
    Except Fault (List Command) :=
  ((Input.tokens e position bytes).map (List.map Command.parse)).mapError .input

variable {e : Encoding} {set : Charset} {p : Nat} {data piece : List Char} {front back field : List UInt8}

/-- Commands are read from parted bytes as from the whole. -/
theorem commandsAt_append (front : List UInt8) (hback : ∀ b ∈ back.head?, Input.isMark b = true) :
    commandsAt e p (front ++ back) = (do
      let before ← commandsAt e p front
      let after ← commandsAt e (p + front.length) back
      return before ++ after) := by
  unfold commandsAt
  rw [Input.tokens_append front hback]
  cases Input.tokens e p front with
  | error fault => rfl
  | ok ts =>
    cases Input.tokens e (p + front.length) back with
    | error fault => rfl
    | ok us => exact congrArg Except.ok List.map_append

/-- The bytes of a piece begin with the byte of its mark. -/
theorem isMark_head (hset : set ≠ .escapedUnicode) (hpiece : Script.IsPiece piece)
    (hfield : set.encode? piece = some field) : ∀ b ∈ field.head?, Input.isMark b = true := by
  obtain ⟨mark, body, rfl, hmark, -⟩ := hpiece
  obtain ⟨code, rest, hcode, -, rfl⟩ := Charset.encode?_cons.1 hfield
  obtain ⟨b, tail, rfl⟩ := List.exists_cons_of_ne_nil (Charset.code_ne_nil hset hcode)
  intro x hx
  obtain rfl : b = x := Option.some.inj hx
  exact (Script.agrees_isMark hset mark _ hcode b List.mem_cons_self).trans hmark

/-- The bytes of a field are one command, wherever they stand. -/
theorem commandsAt_field (hcodec : e.codec = set.codec) (hset : set ≠ .escapedUnicode)
    (hpiece : Script.WritesField data piece) (hfield : set.encode? piece = some field) (p : Nat) :
    ∃ mark, commandsAt e p field = .ok [⟨mark, "FD", Command.splitArgs (.ofChars data)⟩] := by
  obtain ⟨mark, f, d, hcode, htoken⟩ := hpiece.token
  have hhead := Script.isMark_of_head hpiece.isPiece []
  rw [List.append_nil] at hhead
  have hpieces := Script.pieces_of_encode hset hhead hfield
  rw [Script.pieces_of_isPiece hpiece.isPiece] at hpieces
  have htokens := Script.pieceTokens_of_pieceOf hcodec hset p hpieces
  refine ⟨some (.char mark), ?_⟩
  unfold commandsAt
  rw [Input.tokens_of_mark (isMark_head hset hpiece.isPiece hfield), htokens, List.map_singleton,
    htoken, ← Command.parse_field hcode]
  rfl

/-- A field is shown as it is written. In any bytes, a piece with the code of field data is one
command between those that the bytes in front and behind say. When a press carries it out, a pending
barcode takes the data of the piece as its content, and the surface is asked to draw them otherwise,
every comma, white space and letter outside ASCII included. This holds of every command of the label
that is such a piece, with all the commands in front of it carried out before. -/
theorem field_verbatim {library : Codec.Library} {name : Text}
    (hname : Encoding.ofName library name = .ok e) (hcodec : e.codec = set.codec)
    (hset : set ≠ .escapedUnicode) (hpiece : Script.WritesField data piece)
    (hfield : set.encode? piece = some field) (front : List UInt8)
    (hback : ∀ b ∈ back.head?, Input.isMark b = true) (position : Nat) :
    ∃ c : Command,
      commandsOf library name (.inMemory (front ++ field ++ back).toArray position) = (do
        let before ← commandsAt e 0 front
        let after ← commandsAt e (front ++ field).length back
        return before ++ c :: after) ∧
      (∀ p : Press, p.dispatch c.name c.args = p.hand (.ofChars data)) ∧
      ∀ before after inner p, Label.interior (before ++ c :: after) = .ok inner →
        Press.run (before ++ c :: after) p =
          ((Press.dispatchAll (before.drop 1) p).andThen (Press.hand (.ofChars data))).andThen
            (Press.dispatchAll after.dropLast) := by
  obtain ⟨mark, hcommand⟩ := commandsAt_field hcodec hset hpiece hfield front.length
  have hhead := isMark_head hset hpiece.isPiece hfield
  refine ⟨⟨mark, "FD", Command.splitArgs (.ofChars data)⟩, ?_, Press.dispatch_field _, ?_⟩
  · -- the bytes are parted before and behind the field, both times in front of a mark
    have hfront := commandsAt_append (e := e) (p := 0) front hhead
    rw [Nat.zero_add, hcommand] at hfront
    have hall := commandsAt_append (e := e) (p := 0) (front ++ field) hback
    rw [Nat.zero_add, hfront] at hall
    rw [commandsOf_eq hname, tokensOf_inMemory]
    refine Eq.trans ?_ (hall.trans ?_)
    · unfold commandsAt
      cases Input.tokens e 0 (front ++ field ++ back) <;> rfl
    · cases commandsAt e 0 front with
      | error fault => rfl
      | ok before =>
        cases commandsAt e (front ++ field).length back with
        | error fault => rfl
        | ok after => exact congrArg Except.ok (List.append_assoc before _ after)
  · intro before after inner p hinner
    -- the field is neither the first nor the last command, for these are the envelope
    obtain rfl := Label.interior_around rfl hinner
    have hhand : Press.dispatchAll (⟨mark, "FD", Command.splitArgs (.ofChars data)⟩ ::
        after.dropLast) = fun q => (q.hand (.ofChars data)).andThen
          (Press.dispatchAll after.dropLast) := by
      funext q
      rw [Press.dispatchAll, Press.dispatch_field]
    unfold Press.run
    rw [hinner]
    simp only
    rw [Press.dispatchAll_append, hhand, Outcome.andThen_assoc]

/-- Commas, white space and letters outside ASCII between `^XA` and `^XZ` in the page 1252, with the
code in small letters and a line break in it. -/
theorem field_verbatim_windows1252 :
    let set := Charset.windows1252
    let e : Encoding := ⟨"cp1252", set.codec⟩
    let data : List Char := [' ', ',', 'é', '€', ',', '\t']
    let piece : List Char := ['~', 'f', '\n', 'd', ' ', ',', 'é', '€', ',', '\t']
    let field : List UInt8 := [0x7e, 0x66, 0x0a, 0x64, 0x20, 0x2c, 0xe9, 0x80, 0x2c, 0x09]
    let front : List UInt8 := [0x5e, 0x58, 0x41]
    let back : List UInt8 := [0x5e, 0x58, 0x5a]
    Encoding.ofName .standard "cp1252" = .ok e ∧ e.codec = set.codec ∧ set ≠ .escapedUnicode ∧
      Script.WritesField data piece ∧ set.encode? piece = some field ∧
      (∀ b ∈ back.head?, Input.isMark b = true) ∧
      ∃ c, commandsOf .standard "cp1252" (.inMemory (front ++ field ++ back).toArray 2) =
          .ok [⟨some (.char '^'), "XA", []⟩, c, ⟨some (.char '^'), "XZ", []⟩] ∧
        ∀ p : Press, p.dispatch c.name c.args = p.hand (.ofChars data) := by
  intro set e data piece field front back
  have hname : Encoding.ofName .standard "cp1252" = .ok e :=
    Encoding.ofName_of_set (by decide) (by decide) .standard
  have hset : set ≠ .escapedUnicode := by decide
  have hpiece : Script.WritesField data piece :=
    @Script.WritesField.intro data '~' 'f' 'd' [] ['\n'] rfl rfl (by simp)
      (by simp [Script.isSpace]) (by simp [data, Script.isMark])
  have hfield : set.encode? piece = some field := by decide
  have hback : ∀ b ∈ back.head?, Input.isMark b = true := by simp [back, Input.isMark]
  obtain ⟨c, hread, hdispatch, -⟩ := field_verbatim hname rfl hset hpiece hfield front hback 2
  exact ⟨hname, rfl, hset, hpiece, hfield, hback, c, hread, hdispatch⟩

end Reader

end LabelPress
