import Relabel.Bytes
import Relabel.Text.Split

/-!
# JSON documents

The documents that reports are made of, and their text: one item per line, indented by two blanks
for each level. Numbers are natural numbers.
-/

namespace Relabel

/-- A JSON document. The fields of an object stand in the order they are written in. -/
inductive JsonValue where
  | null
  | bool (b : Bool)
  | number (n : Nat)
  | string (s : String)
  | list (items : List JsonValue)
  | object (fields : List (String × JsonValue))

namespace JsonValue

/-- A text, or nothing. -/
def ofOption : Option String → JsonValue
  | some s => .string s
  | none => .null

/-! ### Strings -/

/-- The form of one character between the quotes. -/
def escapedChar (c : Char) : List Char :=
  if c = '"' then ['\\', '"']
  else if c = '\\' then ['\\', '\\']
  else if c = '\n' then ['\\', 'n']
  else if c = '\r' then ['\\', 'r']
  else if c = '\t' then ['\\', 't']
  else if c.toNat = 8 then ['\\', 'b']
  else if c.toNat = 12 then ['\\', 'f']
  else if c.toNat < 32 then ("\\u" ++ Bytes.hexNumber 4 c.toNat).toList
  else [c]

/-- A text in quotes. -/
def quote (s : String) : String :=
  String.ofList ('"' :: s.toList.flatMap escapedChar ++ ['"'])

/-! ### Layout -/

/-- The start of a line at a level. -/
def newLine (level : Nat) : String :=
  String.ofList ('\n' :: List.replicate (2 * level) ' ')

/-- Texts in brackets, one per line, at a level. -/
def bracket (start stop : String) (level : Nat) (items : List String) : String :=
  if items.isEmpty then start ++ stop
  else
    start ++ newLine (level + 1) ++ Text.joinWith ("," ++ newLine (level + 1)) items ++
      newLine level ++ stop

mutual

/-- The text of a document whose first line starts at a level. -/
def prettyAt (level : Nat) : JsonValue → String
  | .null => "null"
  | .bool true => "true"
  | .bool false => "false"
  | .number n => toString n
  | .string s => quote s
  | .list items => bracket "[" "]" level (prettyItems (level + 1) items)
  | .object fields => bracket "\x7b" "\x7d" level (prettyFields (level + 1) fields)

/-- The texts of the items of a list. -/
def prettyItems (level : Nat) : List JsonValue → List String
  | [] => []
  | item :: rest => prettyAt level item :: prettyItems level rest

/-- The texts of the fields of an object. -/
def prettyFields (level : Nat) : List (String × JsonValue) → List String
  | [] => []
  | (name, value) :: rest => (quote name ++ ": " ++ prettyAt level value) :: prettyFields level rest

end

/-- The text of a document. -/
def pretty (j : JsonValue) : String :=
  j.prettyAt 0

end JsonValue

end Relabel
