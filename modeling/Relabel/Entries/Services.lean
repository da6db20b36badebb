import Relabel.Entries.Manifest

/-!
# Service files

A service file is named after a class and lists classes, one per line. A number sign starts a
comment. All but the class names stays as it is.
-/

namespace Relabel.Services

/-- Cuts a text after each line feed. -/
def cutLines : List Char → List (List Char)
  | [] => []
  | c :: rest =>
    if c = '\n' then [c] :: cutLines rest
    else match cutLines rest with
      | [] => [[c]]
      | line :: lines => (c :: line) :: lines

/-- Whether a character ends a line. -/
def isLineEnd (c : Char) : Bool :=
  c = '\r' || c = '\n'

/-- A line under the new names. -/
def relabelLine (mapClass : String → Option String) (line : List Char) : List Char :=
  let body := Text.dropEndWhile isLineEnd line
  let entry := body.takeWhile (· ≠ '#')
  let name := Text.trimChars entry
  if name.isEmpty then line
  else
    let start := (entry.takeWhile Text.isBlank).length
    entry.take start ++ (Manifest.mapDotted mapClass (String.ofList name)).toList ++
      line.drop (start + name.length)

/-- A service file under the new names. -/
def relabel (mapClass : String → Option String) (text : String) : String :=
  String.ofList ((cutLines text.toList).flatMap (relabelLine mapClass))

end Relabel.Services
