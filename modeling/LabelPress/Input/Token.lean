import LabelPress.Charset.Encoding
import LabelPress.Input.Cursor

/-!
# Tokens

A label is a flat run of commands, and a token is one command: a mark, `^` or `~`, and everything
up to the next mark or the end. White space does not count, neither between commands nor inside
them, except in field data, which is printed as it stands.

The functions work on the bytes, before anything is decoded. They end because each step leaves the
cursor behind the byte that it has seen; `readToken_eq_ok` says that a token that is not empty was
at least one byte long.
-/

namespace LabelPress.Input

open Cursor (Reading)

def isMark (b : UInt8) : Bool :=
  b == 0x5e || b == 0x7e

def isSpace (b : UInt8) : Bool :=
  b == 0x20 || (0x09 ≤ b && b ≤ 0x0d)

/-- Whether the bytes after a mark begin with the code of field data, in either case. -/
def isFieldData (command : Array UInt8) : Bool :=
  (command[0]? == some 0x46 || command[0]? == some 0x66) &&
    (command[1]? == some 0x44 || command[1]? == some 0x64)

def skipSpaceFrom (c : Cursor) : EStateM.Result InputFault Cursor Unit :=
  match _hp : c.peek with
  | .error e d => .error e d
  | .ok none d => .ok () d
  | .ok (some b) d =>
    if isSpace b then
      match _hm : d.move 1 with
      | .error e d => .error e d
      | .ok () d => skipSpaceFrom d
    else .ok () d
termination_by c.size - c.source.position
decreasing_by
  have := Cursor.peek_eq_some _hp
  have := Cursor.move_eq_ok _hm
  omega

def skipSpace : Reading Unit := skipSpaceFrom

/-- The bytes of a command after those in `command`, up to the next mark. -/
def readBodyFrom (command : Array UInt8) (c : Cursor) :
    EStateM.Result InputFault Cursor (Array UInt8) :=
  match _hp : c.peek with
  | .error e d => .error e d
  | .ok none d => .ok command d
  | .ok (some b) d =>
    if isMark b then .ok command d
    else if isSpace b && !isFieldData command then
      match _hm : d.move 1 with
      | .error e d => .error e d
      | .ok () d => readBodyFrom command d
    else
      match _hn : d.next with
      | .error e d => .error e d
      | .ok none d => .ok command d
      | .ok (some b) d => readBodyFrom (command.push b) d
termination_by c.size - c.source.position
decreasing_by
  · have := Cursor.peek_eq_some _hp
    have := Cursor.move_eq_ok _hm
    omega
  · have := Cursor.peek_eq_some _hp
    have := Cursor.next_eq_some _hn
    omega

/-- The bytes of a command behind its mark. -/
def readBody : Reading (Array UInt8) := readBodyFrom #[]

/-- The command whose mark the cursor stands before. -/
def readCommand (encoding : Encoding) : Reading Text := do
  let start ← Cursor.position
  let mark ← Cursor.next
  let body ← readBody
  match encoding.decode (mark.toList ++ body.toList) with
  | .ok t => return t
  | .error fault => throw (.ofCodec (start + 1) encoding.name fault)

/-- Refuses what stands where a command was expected. -/
def refuse : Reading Text := do
  let start ← Cursor.position
  throw (.stray (start + 1))

/-- The next token; the empty text at the end. -/
def readToken (encoding : Encoding) : Reading Text := do
  skipSpace
  match ← Cursor.peek with
  | none => return .empty
  | some b => if isMark b then readCommand encoding else refuse

/-! ### How far a token reaches -/

theorem skipSpaceFrom_eq_ok {c d : Cursor} (h : skipSpaceFrom c = .ok () d) :
    d.size = c.size ∧ c.source.position ≤ d.source.position := by
  fun_induction skipSpaceFrom c with
  | case1 => cases h
  | case2 c e hp =>
    cases h
    simp [Cursor.peek_eq_none hp]
  | case3 => cases h
  | case4 c b d' hp hb e hm ih =>
    have := Cursor.peek_eq_some hp
    have := Cursor.move_eq_ok hm
    have := ih h
    omega
  | case5 c b d' hp hb =>
    cases h
    have := Cursor.peek_eq_some hp
    omega

theorem readBodyFrom_eq_ok {c d : Cursor} {command out : Array UInt8}
    (h : readBodyFrom command c = .ok out d) :
    d.size = c.size ∧ c.source.position + out.size ≤ d.source.position + command.size := by
  fun_induction readBodyFrom command c with
  | case1 => cases h
  | case2 command c e hp =>
    cases h
    simp [Cursor.peek_eq_none hp]
  | case3 command c b d' hp hb =>
    cases h
    have := Cursor.peek_eq_some hp
    omega
  | case4 => cases h
  | case5 command c b d' hp hb hs e hm ih =>
    have := Cursor.peek_eq_some hp
    have := Cursor.move_eq_ok hm
    have := ih h
    omega
  | case6 => cases h
  | case7 command c b d' hp hb hs e hn =>
    cases h
    have := Cursor.peek_eq_some hp
    simp [Cursor.next_eq_none hn]
    omega
  | case8 command c b d' hp hb hs b' e hn ih =>
    have := Cursor.peek_eq_some hp
    have := Cursor.next_eq_some hn
    have := ih h
    simp only [Array.size_push] at this
    omega

/-- A command that is not empty lies behind the cursor. -/
theorem readCommand_eq_ok {e : Encoding} {c d : Cursor} {t : Text}
    (h : readCommand e c = .ok t d) (ht : t ≠ .empty) :
    d.size = c.size ∧ c.source.position < d.source.position := by
  obtain ⟨start, c₁, hpos, h₁⟩ := Cursor.bind_eq_ok.1 h
  obtain ⟨mark, c₂, hnext, h₂⟩ := Cursor.bind_eq_ok.1 h₁
  obtain ⟨body, c₃, hbody, h₃⟩ := Cursor.bind_eq_ok.1 h₂
  obtain rfl := Cursor.position_eq_ok hpos
  have hb := readBodyFrom_eq_ok hbody
  simp only [List.size_toArray, List.length_nil] at hb
  cases mark with
  | some b =>
    have := Cursor.next_eq_some hnext
    cases hd : e.decode ((some b).toList ++ body.toList) with
    | error => rw [hd] at h₃; cases h₃
    | ok =>
      rw [hd] at h₃
      cases h₃
      omega
  | none =>
    obtain rfl := Cursor.next_eq_none hnext
    have hsize : body.size ≠ 0 := by
      intro hs
      have hnil : body.toList = [] := by simpa using hs
      simp only [hnil, Option.toList_none, List.nil_append, Encoding.decode,
        e.codec.decode_nil] at h₃
      cases h₃
      exact ht rfl
    cases hd : e.decode (none.toList ++ body.toList) with
    | error => rw [hd] at h₃; cases h₃
    | ok =>
      rw [hd] at h₃
      cases h₃
      simp only at hb
      omega

/-- A token that is not empty lies behind the cursor, which stood before the end. -/
theorem readToken_eq_ok {e : Encoding} {c d : Cursor} {t : Text} (h : readToken e c = .ok t d)
    (ht : t ≠ .empty) :
    c.source.position < c.size ∧ d.size = c.size ∧ c.source.position < d.source.position := by
  obtain ⟨_, c₁, hskip, h₁⟩ := Cursor.bind_eq_ok.1 h
  obtain ⟨b, c₂, hpeek, h₂⟩ := Cursor.bind_eq_ok.1 h₁
  have hs := skipSpaceFrom_eq_ok hskip
  cases b with
  | none =>
    cases h₂
    exact absurd rfl ht
  | some b =>
    have hp := Cursor.peek_eq_some hpeek
    simp only at h₂
    split at h₂
    · have hc := readCommand_eq_ok h₂ ht
      omega
    · obtain ⟨_, _, _, hr⟩ := Cursor.bind_eq_ok.1 h₂
      cases hr

def readRestFrom (encoding : Encoding) (c : Cursor) :
    EStateM.Result InputFault Cursor (List Text) :=
  match _ht : readToken encoding c with
  | .error e d => .error e d
  | .ok t d =>
    if _he : t = .empty then .ok [] d
    else
      match readRestFrom encoding d with
      | .error e d => .error e d
      | .ok ts d => .ok (t :: ts) d
termination_by c.size - c.source.position
decreasing_by
  have := readToken_eq_ok _ht _he
  omega

def readRest (encoding : Encoding) : Reading (List Text) := readRestFrom encoding

def readAll (encoding : Encoding) : Reading (List Text) := do
  Cursor.rewind
  readRest encoding

end LabelPress.Input
