import Relabel.Bytes
import Relabel.Text.CharClass.Unprintable

/-!
# Quoted texts

How messages show a text: in double quotes, with a backslash before quotes and backslashes,
short forms for the common controls, and the code point of every other unprintable character.
-/

namespace Relabel.Text

/-- The form of one character between the quotes. -/
def quotedChar (c : Char) : List Char :=
  if c = '"' then ['\\', '"']
  else if c = '\\' then ['\\', '\\']
  else if c = '\t' then ['\\', 't']
  else if c = '\r' then ['\\', 'r']
  else if c = '\n' then ['\\', 'n']
  else if c.toNat = 0 then ['\\', '0']
  else if c = ' ' then [c]
  else if unprintable.contains c.toNat then
    ("\\u\x7b" ++ Bytes.hexNumber 1 c.toNat ++ "\x7d").toList
  else [c]

/-- A text as messages show it. -/
def quoted (s : String) : String :=
  String.ofList ('"' :: s.toList.flatMap quotedChar ++ ['"'])

end Relabel.Text
