import Relabel.Text.Split

/-!
# Manifests

A manifest is a list of sections, and a section a list of attributes. In its text a blank line ends
a section, a line that starts with a blank goes on with the value before it, and any other line is a
name, a colon and a value. Written lines have at most 72 bytes.

`relabel` maps the class names that the first section holds, and leaves out the digests of all
others: they no longer fit.
-/

namespace Relabel.Manifest

/-- A name with its value. -/
structure Attribute where
  name : List Char
  value : List Char
  deriving DecidableEq, Repr

/-- Attributes between two blank lines. -/
abbrev Section := List Attribute

/-! ### Reading -/

/-- The attribute of a line. A line without a colon is a name without a value. -/
def readAttribute (line : List Char) : Attribute :=
  match Text.splitFirst? ':' line with
  | some (name, value) => { name, value := value.dropWhile Text.isBlank }
  | none => { name := line, value := [] }

/-- Goes on with the value of the attribute read last, where there is one. -/
def extend (more : List Char) : Section → Section
  | [] => []
  | last :: before => { last with value := last.value ++ more } :: before

/-- Puts a section, given in reverse, in front of others, unless it is empty. -/
def close (current : Section) (rest : List Section) : List Section :=
  if current.isEmpty then rest else current.reverse :: rest

/-- Reads the sections of a list of lines. `current` is the section at hand, in reverse. -/
def readLines (current : Section) : List (List Char) → List Section
  | [] => close current []
  | [] :: rest => close current (readLines [] rest)
  | (' ' :: more) :: rest => readLines (extend more current) rest
  | line :: rest => readLines (readAttribute line :: current) rest

/-- The sections of a text that are not empty. -/
def parse (text : String) : List Section :=
  readLines [] (Text.lineChars text.toList)

/-! ### Writing -/

/-- Breaks a line where the next character would be one byte too many. `room` is the number of bytes
left on this line; the blank in front of a continued line takes one. -/
def fold : Nat → List Char → List Char
  | _, [] => []
  | room, c :: rest =>
    if c.utf8Size ≤ room then c :: fold (room - c.utf8Size) rest
    else '\r' :: '\n' :: ' ' :: c :: fold (71 - c.utf8Size) rest

/-- The lines of an attribute. -/
def renderAttribute (a : Attribute) : List Char :=
  fold 72 (a.name ++ ':' :: ' ' :: a.value) ++ ['\r', '\n']

/-- The lines of a section, and a blank line. -/
def renderSection (s : Section) : List Char :=
  s.flatMap renderAttribute ++ ['\r', '\n']

/-- The text of sections. -/
def render (sections : List Section) : String :=
  String.ofList (sections.flatMap renderSection)

/-! ### New names -/

/-- Whether two names differ in the case of ASCII letters only. -/
def sameName (name : List Char) (other : String) : Bool :=
  name.map Char.toLower = other.toList.map Char.toLower

/-- The attributes of the first section that hold class names. -/
def classAttributes : List String :=
  ["Main-Class", "Launcher-Agent-Class", "Premain-Class", "Agent-Class"]

/-- A class name with dots under its new name. -/
def mapDotted (mapClass : String → Option String) (dotted : String) : String :=
  match mapClass (Text.replaceChar '.' '/' dotted) with
  | some new => Text.replaceChar '/' '.' new
  | none => dotted

/-- An attribute of the first section under the new names. -/
def relabelAttribute (mapClass : String → Option String) (a : Attribute) : Attribute :=
  if classAttributes.any (sameName a.name) then
    { a with value := (mapDotted mapClass (String.ofList a.value)).toList }
  else a

/-- Whether an attribute is a digest of an entry. -/
def isDigest (a : Attribute) : Bool :=
  (Text.stripBack? "-digest".toList (a.name.map Char.toLower)).isSome

/-- A section on an entry without its digests, unless nothing but the name of the entry is left. -/
def dropDigests (s : Section) : Option Section :=
  let kept := s.filter (!isDigest ·)
  if kept.all fun a => sameName a.name "Name" then none else some kept

/-- The sections under the new names. -/
def relabel (mapClass : String → Option String) : List Section → List Section
  | [] => []
  | first :: rest => first.map (relabelAttribute mapClass) :: rest.filterMap dropDigests

end Relabel.Manifest
