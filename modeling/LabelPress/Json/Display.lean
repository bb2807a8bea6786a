import LabelPress.Json.Basic
import LabelPress.Text.Quoted

/-!
# Values in messages

The notation in which messages and traces show a value: quoted texts, `None` for nothing, lists in
brackets and objects in braces.
-/

namespace LabelPress.Json

/-- The items with a comma and a space between them. -/
def commaSeparated (parts : List (List Char)) : List Char :=
  ", ".toList.intercalate parts

mutual

def shown : Json → List Char
  | .null => "None".toList
  | .bool true => "True".toList
  | .bool false => "False".toList
  | .number n => n.chars .plain
  | .string t => Text.quoteChars t
  | .array xs => '[' :: commaSeparated (itemParts xs) ++ [']']
  | .object ms => '\x7b' :: commaSeparated (memberParts ms) ++ ['\x7d']

/-- The items of a list, each in the notation of messages. -/
def itemParts : List Json → List (List Char)
  | [] => []
  | x :: xs => shown x :: itemParts xs

/-- The members of an object, each in the notation of messages. -/
def memberParts : List (Text × Json) → List (List Char)
  | [] => []
  | (name, x) :: ms => (Text.quoteChars name ++ ':' :: ' ' :: shown x) :: memberParts ms

end

def quoted (x : Json) : String :=
  String.ofList x.shown

/-- A value as running text: a text stands for itself. -/
def plain : Json → Text
  | .string t => t
  | x => x.quoted

end LabelPress.Json
