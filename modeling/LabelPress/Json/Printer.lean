import LabelPress.Json.Basic
import LabelPress.Text.Hex

/-!
# Writing JSON

A value as JSON text in ASCII characters, on one line or with every item on a line of its own.
-/

namespace LabelPress.Json

open Text (hexDigits)

/-- The words for the numbers that JSON has no numerals for. -/
def words : Decimal.Words := ⟨"NaN", "Infinity"⟩

def unitEscape (n : Nat) : List Char :=
  '\\' :: 'u' :: hexDigits 4 n

/-- One character inside a string; beyond the 16-bit units it takes a pair of them. -/
def escapeChar (c : Char) : List Char :=
  if c == '"' then ['\\', '"']
  else if c == '\\' then ['\\', '\\']
  else if c == '\n' then ['\\', 'n']
  else if c == '\r' then ['\\', 'r']
  else if c == '\t' then ['\\', 't']
  else if c == '\x0c' then ['\\', 'f']
  else if c == '\x08' then ['\\', 'b']
  else if ' ' ≤ c && c ≤ '~' then [c]
  else if c.toNat < 0x10000 then unitEscape c.toNat
  else
    let n := c.toNat - 0x10000
    unitEscape (0xd800 + n / 0x400) ++ unitEscape (0xdc00 + n % 0x400)

def escapePoint : CodePoint → List Char
  | .char c => escapeChar c
  | .half h => unitEscape (0xd800 + h)

def stringChars (t : Text) : List Char :=
  '"' :: t.points.flatMap escapePoint ++ ['"']

/-- How the parts of a value are set out: on one line, or indented by a text for each level. -/
inductive Layout where
  | line
  | indented (unit : List Char)
  deriving DecidableEq, Repr

/-- The default: every level two spaces further in. -/
def Layout.standard : Layout := .indented [' ', ' ']

/-- The layout that a value asks for: nothing for one line, a number of spaces, or a text. -/
def Layout.ofJson : Json → Except ValueFault Layout
  | .null => .ok .line
  | .string unit => .ok (.indented unit.toString.toList)
  | x =>
    match x.number? with
    | some (.int n) => .ok (.indented (List.replicate n.toNat ' '))
    | _ => .error .wrongKind

/-- What stands before an item at a depth. -/
def Layout.gap (l : Layout) (depth : Nat) : List Char :=
  match l with
  | .line => []
  | .indented unit => '\n' :: (List.replicate depth unit).flatten

/-- What stands between two items at a depth. -/
def Layout.separator (l : Layout) (depth : Nat) : List Char :=
  match l with
  | .line => [',', ' ']
  | .indented _ => ',' :: l.gap depth

/-- Parts between brackets, nothing between the brackets if there are none. -/
def enclose (l : Layout) (depth : Nat) (opening closing : Char) (parts : List (List Char)) :
    List Char :=
  if parts.isEmpty then [opening, closing]
  else opening :: l.gap (depth + 1) ++ (l.separator (depth + 1)).intercalate parts ++
    l.gap depth ++ [closing]

mutual

def chars (l : Layout) (depth : Nat) : Json → List Char
  | .null => "null".toList
  | .bool true => "true".toList
  | .bool false => "false".toList
  | .number n => n.chars words
  | .string t => stringChars t
  | .array xs => enclose l depth '[' ']' (itemChars l (depth + 1) xs)
  | .object ms => enclose l depth '\x7b' '\x7d' (memberChars l (depth + 1) ms)

def itemChars (l : Layout) (depth : Nat) : List Json → List (List Char)
  | [] => []
  | x :: xs => chars l depth x :: itemChars l depth xs

def memberChars (l : Layout) (depth : Nat) : List (Text × Json) → List (List Char)
  | [] => []
  | (name, x) :: ms =>
    (stringChars name ++ ':' :: ' ' :: chars l depth x) :: memberChars l depth ms

end

def render (l : Layout) (x : Json) : String :=
  String.ofList (chars l 0 x)

end LabelPress.Json
