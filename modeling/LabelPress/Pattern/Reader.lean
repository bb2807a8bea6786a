import LabelPress.Decimal.Reader
import LabelPress.Pattern.Basic
import LabelPress.Text.Hex

/-!
# Reading patterns

The notation of patterns. A text is first cut into marks, of which a backslash with what follows it
is one. The reader then goes over the marks with the number of groups that it has opened, how long a
text each closed group describes, and the modes that hold for the whole pattern. Each function
carries a bound on the steps that are left; `Pattern.parse` starts with one that no text reaches.
-/

namespace LabelPress.Pattern

open Text (isAsciiDigit)

/-- A code point, or a backslash with the code point after it. -/
inductive Mark where
  | plain (p : CodePoint)
  | escape (p : CodePoint)
  /-- A backslash with nothing after it. -/
  | dangling
  deriving DecidableEq, Repr

namespace Mark

def ofPoints : List CodePoint → List Mark
  | [] => []
  | .char '\\' :: rest =>
    match rest with
    | [] => [.dangling]
    | p :: rest => .escape p :: ofPoints rest
  | p :: rest => .plain p :: ofPoints rest

def points : Mark → List CodePoint
  | .plain p => [p]
  | .escape p => [.char '\\', p]
  | .dangling => [.char '\\']

/-- The character of a mark that is no escape. -/
def char? : Mark → Option Char
  | .plain p => p.char?
  | .escape _ | .dangling => none

def isChar (m : Mark) (c : Char) : Bool :=
  m == .plain (.char c)

/-- Whether a mark is a character that meets a condition. -/
def meets (m : Mark) (p : Char → Bool) : Bool :=
  m.char?.any p

end Mark

/-- What holds for a part of a pattern. -/
structure Modes where
  ignoreCase : Bool := false
  multiline : Bool := false
  dotAll : Bool := false
  /-- Space and comments between the parts do not count. -/
  spaced : Bool := false
  ascii : Bool := false
  unicode : Bool := false
  /-- Nothing may be repeated. -/
  once : Bool := false
  deriving DecidableEq, Repr

def Modes.sense (m : Modes) : Sense := ⟨m.ignoreCase, m.ascii⟩

/-- Where a reader stands. -/
structure ReadState where
  rest : List Mark
  /-- The modes of the whole pattern. -/
  modes : Modes := {}
  /-- The number of the next group. -/
  next : Nat := 1
  /-- The closed groups. -/
  closed : List (Nat × Width) := []
  names : List (Text × Nat) := []
  /-- The number of the next group when the outermost look behind was begun. -/
  behind : Option Nat := none
  /-- The groups on which conditions depend. -/
  conditions : List Nat := []
  /-- Whether something was read that is well written and still refused at the end. -/
  refused : Bool := false

abbrev Reading := StateT ReadState (Except ReadFault)

namespace Reading

def fail {A : Type} : Reading A := throw .malformed

/-- Goes on, and refuses the whole pattern at the end. -/
def refuse : Reading Unit :=
  modify fun s => { s with refused := true }

def peek : Reading (Option Mark) := do
  return (← get).rest.head?

/-- Passes so many marks; a backslash that escapes nothing is refused as soon as it is next. -/
def advance (n : Nat) : Reading Unit := do
  let s ← get
  let rest := s.rest.drop n
  if rest.head? == some .dangling then fail
  set { s with rest }

/-- Passes the next mark. -/
def skip : Reading Unit := advance 1

/-- The next mark, which has to be there. -/
def take : Reading Mark := do
  match ← peek with
  | some m => skip; return m
  | none => fail

/-- Passes a character, if it is the next. -/
def accept (c : Char) : Reading Bool := do
  match ← peek with
  | some m => if m.isChar c then skip; return true else return false
  | none => return false

/-- Passes a character, which has to be the next. -/
def expect (c : Char) : Reading Unit := do
  unless ← accept c do fail

/-- The next characters that meet a condition, at most so many. -/
def takeWhile (p : Char → Bool) (most : Nat) : Reading (List Char) := do
  let s ← get
  let cs := (s.rest.take most).takeWhile (·.meets p) |>.filterMap (·.char?)
  advance cs.length
  return cs

def takeDigits : Reading (List Char) := do
  takeWhile isAsciiDigit (← get).rest.length

/-- What stands before a character, which has to follow; it is passed too. -/
def takeUntil (c : Char) : Reading Text := do
  let s ← get
  let before := s.rest.takeWhile (!·.isChar c)
  if before.isEmpty || before.length == s.rest.length then fail
  else
    advance (before.length + 1)
    return ⟨before.flatMap (·.points)⟩

def isClosed (n : Nat) : Reading Bool := do
  return (← get).closed.any (·.1 == n)

/-- Refuses a group that a look behind cannot refer to. -/
def checkBehind (n : Nat) : Reading Unit := do
  match (← get).behind with
  | some first => if !(← isClosed n) || first ≤ n then fail
  | none => return ()

end Reading

open Reading

/-- The width of a group that is closed. -/
def ReadState.widthOf (s : ReadState) (n : Nat) : Width :=
  ((s.closed.find? (·.1 == n)).map (·.2)).getD (.exactly 0)

def isHexDigit (c : Char) : Bool := (Text.hexValue? c).isSome

def isOctalDigit (c : Char) : Bool := '0' ≤ c && c ≤ '7'

/-- The number that octal digits stand for. -/
def octalValue (ds : List Char) : Nat :=
  ds.foldl (fun n d => 8 * n + (d.toNat - 48)) 0

/-- The code of a letter that stands for a control character. -/
def controlCode? (c : Char) : Option Nat :=
  match c with
  | 'a' => some 7
  | 'b' => some 8
  | 'f' => some 12
  | 'n' => some 10
  | 'r' => some 13
  | 't' => some 9
  | 'v' => some 11
  | '\\' => some 0x5c
  | _ => none

/-- The class of a letter, and whether its complement is meant. -/
def classOf? (c : Char) : Option Member :=
  match c with
  | 'd' => some (.cls .digit false)
  | 'D' => some (.cls .digit true)
  | 's' => some (.cls .space false)
  | 'S' => some (.cls .space true)
  | 'w' => some (.cls .word false)
  | 'W' => some (.cls .word true)
  | _ => none

def readHex (digits : Nat) : Reading Nat := do
  let ds ← takeWhile isHexDigit digits
  if ds.length < digits then fail
  match Text.hexNumber? ds with
  | some n => if 0x10ffff < n then fail else return n
  | none => fail

/-- The code of an escape that is written the same way in sets and outside them. -/
def readCode (p : CodePoint) : Reading Nat := do
  match p with
  | .char 'x' => readHex 2
  | .char 'u' => readHex 4
  | .char 'U' => readHex 8
  | p => if p.meets fun c => c.isAlphanum then fail else return p.code

def readSetEscape (p : CodePoint) : Reading Member := do
  match p with
  | .half _ => return .range p.code p.code
  | .char c =>
    match controlCode? c, classOf? c with
    | some n, _ => return .range n n
    | none, some m => return m
    | none, none =>
      if isOctalDigit c then
        let n := octalValue (c :: (← takeWhile isOctalDigit 2))
        if 0o377 < n then fail else return .range n n
      else
        let n ← readCode p
        return .range n n

/-- One member of a set, by its first mark. -/
def readMember : Mark → Reading Member
  | .escape p => readSetEscape p
  | .plain p => return .range p.code p.code
  | .dangling => fail

/-- The members of a set up to its closing bracket, which does not count as the first of them. -/
def readMembers : Nat → List Member → Reading (List Member)
  | 0, _ => fail
  | fuel + 1, members => do
    let m ← take
    if m.isChar ']' && !members.isEmpty then return members
    let first ← readMember m
    if ← accept '-' then
      let n ← take
      if n.isChar ']' then return .range 0x2d 0x2d :: first :: members
      match first, ← readMember n with
      | .range low _, .range high _ =>
        if high < low then fail else readMembers fuel (.range low high :: members)
      | _, _ => fail
    else readMembers fuel (first :: members)

def readSet : Reading CharSet := do
  let negated ← accept '^'
  return { members := ← readMembers ((← get).rest.length + 1) [], negated }

/-- A reference to a group by its number. -/
def reference (n : Nat) (modes : Modes) : Reading Pattern := do
  if !(← isClosed n) then fail
  checkBehind n
  return .again n modes.sense

/-- An escape that begins with a digit other than zero: three octal digits, or a reference. -/
def readNumbered (c : Char) (modes : Modes) : Reading Pattern := do
  match ← takeWhile isAsciiDigit 1 with
  | [d] =>
    if isOctalDigit c && isOctalDigit d then
      match ← takeWhile isOctalDigit 1 with
      | [e] =>
        let n := octalValue [c, d, e]
        if 0o377 < n then fail else return code n modes.sense
      | _ => reference (Decimal.value [c, d]) modes
    else reference (Decimal.value [c, d]) modes
  | _ => reference (Decimal.value [c]) modes

def readEscape (p : CodePoint) (modes : Modes) : Reading Pattern := do
  let literal (n : Nat) : Pattern := code n modes.sense
  match p with
  | .half _ => return literal p.code
  | .char 'A' => return .anchor .start
  | .char 'Z' => return .anchor .finish
  | .char 'b' => return .anchor (.boundary modes.ascii false)
  | .char 'B' => return .anchor (.boundary modes.ascii true)
  | .char '0' => return literal (octalValue (← takeWhile isOctalDigit 2))
  | .char c =>
    match classOf? c, controlCode? c with
    | some m, _ => return .oneOf ⟨[m], false⟩ modes.sense
    | none, some n => return literal n
    | none, none =>
      if isAsciiDigit c then readNumbered c modes else return literal (← readCode p)

/-- The greatest number of repetitions that can be counted, and one more. -/
def tooMany : Nat := 4294967295

/-- A number of repetitions, if one is given. -/
def count? (ds : List Char) : Reading (Option Nat) := do
  if ds.isEmpty then return none
  else if tooMany ≤ Decimal.value ds then throw .tooOften
  else return some (Decimal.value ds)

/-- The bounds of a repetition after its opening brace; nothing if the brace stands for itself. -/
def readBounds : Reading (Option (Nat × Option Nat)) := do
  let s ← get
  if s.rest.head?.any (·.isChar '\x7d') then return none
  let low ← takeDigits
  let high ← if ← accept ',' then takeDigits else pure low
  if ← accept '\x7d' then
    let low := (← count? low).getD 0
    let high ← count? high
    if high.any (· < low) then fail else return some (low, high)
  else
    set s
    return none

/-- What kind of part stands before a repetition. -/
inductive Part where
  | anchor
  | loop
  | other
  deriving DecidableEq, Repr

/-- The parts of a sequence, the last one first. -/
abbrev Parts := List (Part × Pattern)

def Parts.toPattern (parts : Parts) : Pattern :=
  parts.foldl (fun rest part => .seq part.2 rest) .empty

def repeated (parts : Parts) (low : Nat) (high : Option Nat) : Reading Parts := do
  match parts with
  | (.other, p) :: parts =>
    if (← get).modes.once then refuse
    let greed : Greed ←
      if ← accept '?' then pure .lazy
      else if ← accept '+' then pure .possessive
      else pure .greedy
    return (.loop, .loop greed low high p) :: parts
  | _ => fail

/-- The modes with one of them turned on or off, by its letter. -/
def Modes.set? (m : Modes) (letter : Char) (on : Bool) : Option Modes :=
  match letter with
  | 'i' => some { m with ignoreCase := on }
  | 'm' => some { m with multiline := on }
  | 's' => some { m with dotAll := on }
  | 'x' => some { m with spaced := on }
  | 'a' => some { m with ascii := on, unicode := m.unicode && !on }
  | 'u' => some { m with unicode := on, ascii := m.ascii && !on }
  | _ => none

def isModeLetter (c : Char) : Bool :=
  "iLmsxatu".toList.contains c

/-- The modes with several of them turned on or off. -/
def Modes.setAll (m : Modes) (letters : List Char) (on : Bool) : Reading Modes :=
  letters.foldlM (fun m c =>
    match m.set? c on with
    | some m => return m
    | none => fail) m

/-- The modes that letters turn on for the whole pattern. -/
def Modes.turnOn (m : Modes) (letters : List Char) : Reading Modes := do
  let ascii := m.ascii || letters.contains 'a'
  let unicode := m.unicode || letters.contains 'u'
  let once := m.once || letters.contains 't'
  let m ← m.setAll (letters.filter (· != 't')) true
  return { m with ascii, unicode, once }

/--
Letters of modes up to a character that is none, after the first letter. Modes that exclude each
other are not turned on together.
-/
def readModes (first : Char) : Reading (List Char) := do
  if first == '-' then return []
  let letters := first :: (← takeWhile isModeLetter (← get).rest.length)
  if letters.contains 'L' || (letters.contains 'a' && letters.contains 'u') then fail
  return letters

/-- The letters of modes that are turned off, after the dash. -/
def readModesOff : Reading (List Char) := do
  let letters ← takeWhile isModeLetter (← get).rest.length
  if letters.isEmpty || letters.any (fun c => "aLut".toList.contains c) then fail
  return letters

/-- Whether a text can name a group. -/
def isGroupName (t : Text) : Bool :=
  match t.points with
  | [] => false
  | p :: _ => t.points.all (fun q => Text.isWordCode q.code) &&
      !p.meets fun c => (Text.digitValue? c).isSome

def groupNamed (name : Text) : Reading Nat := do
  match (← get).names.find? (·.1 == name) with
  | some (_, n) => return n
  | none => fail

/-- The number of the group on which a condition depends. -/
def readCondition : Reading Nat := do
  let name ← takeUntil ')'
  if isGroupName name then groupNamed name
  else
    match Decimal.integer? name with
    | some n =>
      if n ≤ 0 then fail
      modify fun s => { s with conditions := n.toNat :: s.conditions }
      return n.toNat
    | none => fail

/-- Opens a group, which may have a name. -/
def openGroup (name : Option Text) : Reading Nat := do
  let s ← get
  match name with
  | some t =>
    if s.names.any (·.1 == t) then fail
    set { s with next := s.next + 1, names := (t, s.next) :: s.names }
  | none => set { s with next := s.next + 1 }
  return s.next

def closeGroup (n : Nat) (p : Pattern) : Reading Pattern := do
  modify fun s => { s with closed := (n, p.width s.widthOf) :: s.closed }
  return .group n p

/-- Passes a comment between parts, up to the end of its line. -/
def skipComment : Reading Unit := do
  let rest := (← get).rest
  if rest.contains .dangling && !rest.any (·.isChar '\n') then fail
  advance ((rest.takeWhile (!·.isChar '\n')).length + 1)

/-- The space that does not count between parts. -/
def isLooseSpace (c : Char) : Bool :=
  c == ' ' || ('\t' ≤ c && c ≤ '\r')

mutual

/-- Alternatives up to the end of their group; `top` says that they are the whole pattern. -/
def readAlternatives : Nat → Modes → Bool → Reading Pattern
  | 0, _, _ => fail
  | fuel + 1, modes, top => do
    let first ← readParts fuel modes top []
    let modes ← if top then pure (← get).modes else pure modes
    readMore fuel modes first

/-- More alternatives after those that were read. -/
def readMore : Nat → Modes → Pattern → Reading Pattern
  | 0, _, _ => fail
  | fuel + 1, modes, before => do
    if ← accept '|' then
      let p ← readParts fuel modes false []
      readMore fuel modes (.alt before p)
    else return before

/-- Parts up to the end of a sequence; `first` says that modes of the whole may be turned on. -/
def readParts : Nat → Modes → Bool → Parts → Reading Pattern
  | 0, _, _, _ => fail
  | fuel + 1, modes, first, parts => do
    match ← peek with
    | none => return parts.toPattern
    | some .dangling => fail
    | some (.escape p) =>
      skip
      let p ← readEscape p modes
      let part : Part := match p with
        | .anchor _ => .anchor
        | _ => .other
      readParts fuel modes first ((part, p) :: parts)
    | some (.plain p) =>
      if p == .char '|' || p == .char ')' then return parts.toPattern
      skip
      let more (part : Part) (p : Pattern) := readParts fuel modes first ((part, p) :: parts)
      let again (low : Nat) (high : Option Nat) : Reading Pattern := do
        readParts fuel modes first (← repeated parts low high)
      if modes.spaced && p.meets isLooseSpace then readParts fuel modes first parts
      else if modes.spaced && p == .char '#' then
        skipComment
        readParts fuel modes first parts
      else
        match p with
        | .char '.' =>
          let excluded := if modes.dotAll then [] else [.range 10 10]
          more .other (.oneOf ⟨excluded, true⟩ {})
        | .char '^' => more .anchor (.anchor (if modes.multiline then .lineStart else .start))
        | .char '$' => more .anchor (.anchor (if modes.multiline then .lineEnd else .lastLine))
        | .char '[' => more .other (.oneOf (← readSet) modes.sense)
        | .char '*' => again 0 none
        | .char '+' => again 1 none
        | .char '?' => again 0 (some 1)
        | .char '\x7b' =>
          match ← readBounds with
          | some (low, high) => again low high
          | none => more .other (code p.code modes.sense)
        | .char '(' =>
          match ← readGroup fuel modes (first && parts.isEmpty) with
          | some q => more .other q
          | none =>
            let modes ← if first && parts.isEmpty then pure (← get).modes else pure modes
            readParts fuel modes first parts
        | p => more .other (code p.code modes.sense)

/-- What follows an opening parenthesis; nothing if it was a comment or turned modes on. -/
def readGroup : Nat → Modes → Bool → Reading (Option Pattern)
  | 0, _, _ => fail
  | fuel + 1, modes, first => do
    if !(← accept '?') then
      some <$> readCapture fuel modes none
    else
      match ← take with
      | .escape _ | .dangling => fail
      | .plain p =>
        match p with
        | .char 'P' =>
          if ← accept '<' then
            let name ← takeUntil '>'
            if isGroupName name then some <$> readCapture fuel modes (some name) else fail
          else if ← accept '=' then
            let name ← takeUntil ')'
            if isGroupName name then some <$> reference (← groupNamed name) modes else fail
          else fail
        | .char ':' =>
          let p ← readAlternatives fuel modes false
          expect ')'
          return some p
        | .char '>' =>
          let p ← readAlternatives fuel modes false
          expect ')'
          return some (.atomic p)
        | .char '#' =>
          let rest := (← get).rest
          if !rest.any (·.isChar ')') then fail
          advance ((rest.takeWhile (!·.isChar ')')).length + 1)
          return none
        | .char '=' => some <$> readAhead fuel modes false
        | .char '!' => some <$> readAhead fuel modes true
        | .char '<' =>
          if ← accept '=' then some <$> readBehind fuel modes false
          else if ← accept '!' then some <$> readBehind fuel modes true
          else fail
        | .char '(' =>
          let n ← readCondition
          checkBehind n
          let yes ← readParts fuel modes false []
          let no ← if ← accept '|' then readParts fuel modes false [] else pure .empty
          expect ')'
          return some (.given n yes no)
        | .char c =>
          if isModeLetter c || c == '-' then
            let letters ← readModes c
            if c != '-' && (← accept ')') then
              if first then
                let modes ← (← get).modes.turnOn letters
                modify fun s => { s with modes }
                return none
              else fail
            else
              if letters.contains 't' then fail
              let off ← if c == '-' || (← accept '-') then readModesOff else pure []
              expect ':'
              if letters.any off.contains then fail
              let inner ← (← modes.setAll letters true).setAll off false
              let p ← readAlternatives fuel inner false
              expect ')'
              return some p
          else fail
        | .half _ => fail

def readCapture : Nat → Modes → Option Text → Reading Pattern
  | 0, _, _ => fail
  | fuel + 1, modes, name => do
    let n ← openGroup name
    let p ← readAlternatives fuel modes false
    expect ')'
    closeGroup n p

def readAhead : Nat → Modes → Bool → Reading Pattern
  | 0, _, _ => fail
  | fuel + 1, modes, negated => do
    let p ← readAlternatives fuel modes false
    expect ')'
    return .ahead negated p

/-- A condition on what stands before, which has to be of one length; that is checked at the end. -/
def readBehind : Nat → Modes → Bool → Reading Pattern
  | 0, _, _ => fail
  | fuel + 1, modes, negated => do
    let outer := (← get).behind
    modify fun s => { s with behind := some (outer.getD s.next) }
    let p ← readAlternatives fuel modes false
    modify fun s => { s with behind := outer }
    expect ')'
    match (p.width (← get).widthOf).fixed? with
    | some distance => return .behind negated distance p
    | none =>
      refuse
      return .empty

end

def readWhole : Reading Pattern := do
  let p ← readAlternatives (4 * (← get).rest.length + 8) {} true
  let s ← get
  if s.modes.ascii && s.modes.unicode then throw .contradiction
  if !s.rest.isEmpty || s.conditions.any (s.next ≤ ·) || s.refused then fail
  return p

def parse (t : Text) : Except ReadFault Pattern :=
  readWhole.run' { rest := Mark.ofPoints t.points }

end LabelPress.Pattern
