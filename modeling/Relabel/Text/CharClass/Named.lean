import Relabel.Bytes
import Relabel.Text.CharClass
import Relabel.Text.Split

/-!
# Named classes of characters

Classes in a compact notation and under names. In the notation `41` is a code point, `41-5a` a
range and `100-136/2` every second code point of a range, all in hexadecimal and in ascending
order. Names are compared loosely: case, blanks, hyphens and underscores do not count.
-/

namespace Relabel.Text

/-- A number in hexadecimal. -/
def hexValue (digits : List Char) : Nat :=
  digits.foldl (fun n c => 16 * n + (Bytes.hexValue? c).getD 0) 0

/-- The ranges that one item of the notation stands for. -/
def CharClass.ofItem (item : List Char) : CharClass :=
  match splitFirst? '-' item with
  | none => single (hexValue item)
  | some (low, rest) =>
    match splitFirst? '/' rest with
    | none => [(hexValue low, hexValue rest)]
    | some (high, step) =>
      let low := hexValue low
      let step := hexValue step
      (List.range ((hexValue high - low) / step + 1)).map fun i =>
        (low + i * step, low + i * step)

/-- The class with this notation, in which each line has its items between blanks. -/
def CharClass.ofLines (lines : List String) : CharClass :=
  lines.flatMap fun line => (splitChars ' ' line.toList).flatMap ofItem

/-- A class of characters with the names it goes by. -/
structure NamedClass where
  names : List String
  members : CharClass

/-- A name without what does not count: case, blanks, hyphens, underscores, characters outside
ASCII, and an `is` in front, which stays where only a `c` follows it. -/
def looseName (name : List Char) : List Char :=
  let keep (s : List Char) := (s.filter fun c =>
    c ≠ ' ' && c ≠ '_' && c ≠ '-' && c.toNat < 128).map Char.toLower
  match name with
  | a :: b :: rest =>
    if a.toLower = 'i' ∧ b.toLower = 's' then
      if keep rest = ['c'] then ['i', 's', 'c'] else keep rest
    else keep name
  | _ => keep name

/-- Whether a class goes by a name, given in its loose form. -/
def NamedClass.hasName (c : NamedClass) (name : List Char) : Bool :=
  c.names.any fun n => looseName n.toList = name

end Relabel.Text
