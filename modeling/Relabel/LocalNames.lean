import Std.Data.HashMap
import Relabel.Descriptor
import Relabel.Pattern
import Relabel.Text.Letters
import Relabel.Text.LowerCase

/-!
# Names of local variables

A local variable name is unusable when it is no identifier, is a reserved word, or is caught by a
pattern. An unusable name is replaced by one of the same slot that can be kept, where that is asked
for, or by a stem of the variable's type and the number of its slot.
-/

namespace Relabel

/-- One entry of a table of local variables. -/
structure LocalEntry where
  name : String
  desc : String
  index : UInt16
  deriving DecidableEq, Repr

/-- How unusable names are found and replaced. -/
structure LocalPolicy where
  /-- Names it is found in are unusable. -/
  pattern : Option Pattern := none
  /-- Whether a replacement may be taken from another entry of the slot. -/
  inferFromSameIndex : Bool := false

namespace LocalPolicy

/-- The words no variable may have for a name. -/
def reservedWords : List String :=
  ["abstract", "assert", "boolean", "break", "byte", "case", "catch", "char", "class", "const",
   "continue", "default", "do", "double", "else", "enum", "extends", "false", "final", "finally",
   "float", "for", "goto", "if", "implements", "import", "instanceof", "int", "interface", "long",
   "native", "new", "null", "package", "private", "protected", "public", "return", "short",
   "static", "strictfp", "super", "switch", "synchronized", "this", "throw", "throws", "transient",
   "true", "try", "void", "volatile", "while", "_"]

/-- Whether a text has the form of an identifier. -/
def isIdentifier (name : String) : Bool :=
  match name.toList with
  | [] => false
  | first :: rest =>
    (Text.isAlphabetic first || first = '_' || first = '$') &&
      rest.all fun c => Text.isAlphanumeric c || c = '_' || c = '$'

/-- Whether a name has to be replaced. The receiver's name `this` never has to. -/
def isUnusable (naming : LocalPolicy) (name : String) : Bool :=
  name != "this" &&
    (!isIdentifier name || reservedWords.contains name || naming.pattern.any (·.isFoundIn name))

/-! ### Stems -/

/-- The last piece between dollar signs that is not empty; all of it where every piece is. -/
def lastPiece (name : List Char) : List Char :=
  ((Text.splitChars '$' name).reverse.find? fun piece => !piece.isEmpty).getD name

/-- The stem for a class: its simple name without odd characters and with a small first letter. -/
def classStem (desc : List Char) : String :=
  let name := Text.dropEndWhile (· = ';') (desc.dropWhile (· = 'L'))
  let simple := lastPiece (Text.afterLast '/' name)
  match simple.filter fun c => Text.isAlphanumeric c || c = '_' with
  | first :: rest =>
    if Text.isAlphabetic first then String.ofList (Text.lowerCase first ++ rest) else "obj"
  | [] => "obj"

/-- The stem for a type that is no array. -/
def elementStem (desc : List Char) : String :=
  match desc with
  | ['Z'] => "bl"
  | ['B'] => "b"
  | ['C'] => "c"
  | ['S'] => "s"
  | ['I'] => "i"
  | ['J'] => "l"
  | ['F'] => "f"
  | ['D'] => "d"
  | 'L' :: _ => classStem desc
  | _ => "var"

/-- The stem for a type, as characters: that of the element with `Arr` for each dimension. -/
def stemChars : List Char → String
  | '[' :: element => stemChars element ++ "Arr"
  | desc => elementStem desc

/-- The stem for a type. -/
def stem (desc : String) : String :=
  stemChars desc.toList

/-! ### Replacements -/

/-- The names in use with the slot that took each first, and the names given to slots. -/
structure Names where
  taken : Std.HashMap String UInt16 := {}
  given : Std.HashMap UInt16 String := {}

/-- Whether a name cannot be given to a slot. -/
def Names.blocked (names : Names) (index : UInt16) (name : String) : Bool :=
  reservedWords.contains name || names.taken[name]?.any (· != index)

/-- Appends underscores until a name can be given to a slot. Each name tried is another, so there
are at most as many blocked ones as names are reserved or taken. -/
def Names.free (names : Names) (index : UInt16) : Nat → String → String
  | 0, name => name
  | fuel + 1, name =>
    if names.blocked index name then names.free index fuel (name ++ "_") else name

/-- The name of a slot that can be kept, where one is to be taken over. -/
def inferred? (naming : LocalPolicy) (locals : List LocalEntry) (index : UInt16) : Option String :=
  if naming.inferFromSameIndex then
    (locals.find? fun other => !naming.isUnusable other.name && other.index = index).map (·.name)
  else none

/-- The replacement for one entry, and the names afterwards. -/
def renameOne (naming : LocalPolicy) (locals : List LocalEntry) (names : Names)
    (entry : LocalEntry) : Option String × Names :=
  if naming.isUnusable entry.name then
    match names.given[entry.index]? with
    | some name => (some name, names)
    | none =>
      let name := (inferred? naming locals entry.index).getD
        (names.free entry.index (reservedWords.length + names.taken.size + 1)
          (stem entry.desc ++ toString entry.index.toNat))
      (some name, {
        taken := names.taken.insertIfNew name entry.index
        given := names.given.insert entry.index name })
  else (none, names)

/-- The names that are kept, each with the slot that has it first. -/
def keptNames (naming : LocalPolicy) (locals : List LocalEntry) : Names where
  taken := locals.foldl (fun taken entry =>
    if naming.isUnusable entry.name then taken else taken.insertIfNew entry.name entry.index) {}

/-- Goes through the entries left. -/
def renameFrom (naming : LocalPolicy) (locals : List LocalEntry) (names : Names) :
    List LocalEntry → List (Option String)
  | [] => []
  | entry :: rest =>
    let (name, names) := renameOne naming locals names entry
    name :: renameFrom naming locals names rest

/-- The replacement for each entry of a table, `none` where the name is kept. -/
def rename (naming : LocalPolicy) (locals : List LocalEntry) : List (Option String) :=
  renameFrom naming locals (keptNames naming locals) locals

end LocalPolicy

end Relabel
