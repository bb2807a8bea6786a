import LabelPress.Text.Digit

/-!
# Code 128

Content as symbols of Code 128. Code set B has the printable ASCII characters and the four function
characters, code set A the control characters, and code set C has one symbol for two digits. The
content is first written in the sets A and B; `pack` then moves runs of digits into set C where that
saves symbols.
-/

namespace LabelPress.Barcode

open Text (isAsciiDigit)

inductive CodeSet where
  | a
  | b
  | c
  deriving DecidableEq, Repr

inductive Symbol where
  | start (set : CodeSet)
  | switch (set : CodeSet)
  | char (c : Char)
  /-- Two digits in one symbol of code set C. -/
  | pair (c d : Char)
  | stop
  deriving DecidableEq, Repr

namespace Symbol

/-- The code set that is in force after the symbol, if the symbol says so. -/
def set? : Symbol → Option CodeSet
  | .start s | .switch s => some s
  | _ => none

def isDigit : Symbol → Bool
  | .char c => isAsciiDigit c
  | _ => false

def isPair : Symbol → Bool
  | .pair .. => true
  | _ => false

/-- The same kind of symbol, into code set C. -/
def toSetC : Symbol → Symbol
  | .start _ => .start .c
  | _ => .switch .c

end Symbol

/-- The first function character, which every code set has. -/
def function1 : Char := '\xf1'

/-- Whether a character is one of the four function characters. -/
def isFunction (c : Char) : Bool :=
  0xf1 ≤ c.toNat && c.toNat ≤ 0xf4

def inSetB (c : Char) : Bool :=
  (' ' ≤ c && c.toNat ≤ 0x7f) || isFunction c

def isEncodable (content : List Char) : Bool :=
  content.all fun c => c.toNat ≤ 0x7f || isFunction c

/-- Content in the sets A and B, every visit to set A as short as possible. -/
def spell (content : List Char) : List Symbol :=
  .start .b :: content.flatMap (fun c =>
    if inSetB c then [.char c] else [.switch .a, .char c, .switch .b]) ++ [.stop]

/-- The digits in pairs and the function characters between them that a list begins with. -/
def takeRun : List Symbol → List Symbol × List Symbol
  | .char c :: rest =>
    if c = function1 then
      let (run, tail) := takeRun rest
      (.char c :: run, tail)
    else
      match rest with
      | .char d :: rest =>
        if isAsciiDigit c && isAsciiDigit d then
          let (run, tail) := takeRun rest
          (.pair c d :: run, tail)
        else ([], .char c :: .char d :: rest)
      | _ => ([], .char c :: rest)
  | l => ([], l)

theorem length_takeRun (l : List Symbol) : (takeRun l).2.length ≤ l.length := by
  fun_induction takeRun l <;> simp_all <;> omega

/-- The symbols of a run with every pair taken apart again. -/
def unpair (run : List Symbol) : List Symbol :=
  run.flatMap fun
    | .pair c d => [.char c, .char d]
    | s => [s]

/-- The digits of a list, the last two in a pair, then the two before them, and so on. -/
def pairsFromEnd (digits : List Char) : List Symbol :=
  if digits.length % 2 = 1 then pairs (digits.drop 1) else pairs digits
where
  /-- Digits in pairs. -/
  pairs : List Char → List Symbol
    | c :: d :: rest => .pair c d :: pairs rest
    | _ => []

def chars (symbols : List Symbol) : List Char :=
  symbols.flatMap fun
    | .char c => [c]
    | .pair c d => [c, d]
    | _ => []

/--
The end of a content with an odd number of digits, where the run before the last digit has no
function character after its first pair: the pairs are counted from the end, and the first symbol
stays in its set.
-/
def packEnd (written run : List Symbol) (digit : Symbol) : List Symbol :=
  let items := unpair run ++ [digit]
  let digits := (chars items).filter isAsciiDigit
  let written := items.take 1 ++ written
  if 1 < run.countP (·.isPair) then
    .stop :: (pairsFromEnd digits).reverse ++ .switch .c :: written
  else .stop :: (items.drop 1).reverse ++ written

/--
Moves runs of digits into code set C. `written` holds the symbols so far, the last one first, and
`current` is the set in force in the list that is read. A run is moved if that saves a symbol: the
way there costs one, unless the run directly follows a switch, and the way back costs one.
-/
def pack (written : List Symbol) (current : CodeSet) (symbols : List Symbol) : List Symbol :=
  match _h : takeRun symbols with
  | (_, []) => written
  | (run, e :: rest) =>
    let pairs := run.countP (·.isPair)
    let fresh := 0 < pairs ∧ (written.head?.bind (·.set?)).isSome
    let arePairs := (run.dropWhile (· = .char function1)).all (·.isPair)
    if e.isDigit ∧ rest = [.stop] ∧ ¬ fresh ∧ arePairs then
      packEnd written run e
    else
      let next := e.set?.getD current
      let back := ¬ (e = .stop ∨ e.set?.isSome)
      let costs := (if back then 1 else 0) + 2 - (if fresh then 1 else 0)
      if costs ≤ pairs then
        let way :=
          match written with
          | s :: before => if fresh then s.toSetC :: before else .switch .c :: written
          | [] => [.switch .c]
        let tail := if back then [e, .switch current] else [e]
        pack (tail ++ run.reverse ++ way) next rest
      else pack (e :: (unpair run).reverse ++ written) next rest
termination_by symbols.length
decreasing_by
  all_goals
    have := length_takeRun symbols
    simp only [_h, List.length_cons] at this
    omega

/-- A start that is followed by a switch goes to that set at once. -/
def mergeStart : List Symbol → List Symbol
  | .start set :: s :: rest =>
    match s.set? with
    | some other => .start other :: rest
    | none => .start set :: s :: rest
  | l => l

def symbols (content : List Char) : List Symbol :=
  mergeStart (pack [] .b (spell content)).reverse

end LabelPress.Barcode
