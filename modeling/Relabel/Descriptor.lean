import Relabel.Text.Split

/-!
# Descriptors

A field descriptor is a type: any number of `[` before a primitive letter or a class name between
`L` and `;`. A method descriptor lists parameter types between parentheses, then the type of its
result.

`rename` carries a class map through any text, well formed or not: it cuts the text into
`Segment`s, the names between an `L` and the next `;` and the characters around them, maps the
names and writes the segments again.
-/

namespace Relabel.Descriptor

/-- A class map: the new name of a class, where it gets one. -/
abbrev ClassMap := String → Option String

/-! ### Types -/

/-- Whether the letter stands for a primitive type. -/
def isPrimitive (c : Char) : Bool :=
  c = 'B' || c = 'C' || c = 'D' || c = 'F' || c = 'I' || c = 'J' || c = 'S' || c = 'Z'

/-- The field type at the front of a text, and what follows it. -/
def takeType? : List Char → Option (List Char × List Char)
  | [] => none
  | c :: rest =>
    if c = '[' then (takeType? rest).map fun (type, after) => (c :: type, after)
    else if isPrimitive c then some ([c], rest)
    else if c = 'L' then
      match rest.span (· ≠ ';') with
      | (name, semicolon :: after) => some (c :: name ++ [semicolon], after)
      | (_, []) => none
    else none

/-- The length in UTF-8 bytes of the field type at the front of a text. -/
def typeLength? (s : String) : Option Nat :=
  (takeType? s.toList).map fun (type, _) => (String.ofList type).utf8ByteSize

/-- Whether a type is that of a class or an array. -/
def isReference (type : String) : Bool :=
  match type.toList with
  | c :: _ => c = 'L' || c = '['
  | [] => false

/-- How many local variable slots a value takes. -/
def slotCount (type : String) : Nat :=
  if type = "J" ∨ type = "D" then 2 else 1

/-- The class a type names, where it is that of a class. -/
def className? (type : String) : Option String :=
  match type.toList with
  | 'L' :: rest => (Text.stripBack? [';'] rest).map String.ofList
  | _ => none

/-! ### Method descriptors -/

/-- The types of a method. -/
structure Method where
  params : List String
  result : String
  deriving DecidableEq, Repr

/-- Cuts a text into the field types it consists of. There are at most `fuel` of them. -/
def takeTypes? : Nat → List Char → Option (List (List Char))
  | _, [] => some []
  | 0, _ :: _ => none
  | fuel + 1, s => do
    let (type, rest) ← takeType? s
    let types ← takeTypes? fuel rest
    return type :: types

/-- Whether a text is exactly one field type. -/
def isType (s : List Char) : Bool :=
  match takeType? s with
  | some (_, []) => true
  | _ => false

/-- Reads a method descriptor. -/
def method? (desc : String) : Option Method :=
  match desc.toList with
  | '(' :: rest => do
    let (params, result) ← Text.splitFirst? ')' rest
    let types ← takeTypes? params.length params
    if result = ['V'] ∨ isType result then
      some { params := types.map String.ofList, result := String.ofList result }
    else none
  | _ => none

/-- Whether a value of one type may stand for the other after erasure. -/
def erasesTo (bridge target : String) : Bool :=
  bridge = target || (isReference bridge && isReference target)

/-- Whether a bridge with descriptor `bridge` may forward to a method with descriptor `target`: the
same number of parameters, equal primitives, and classes where the bridge has classes. -/
def erasureCompatible (bridge target : String) : Bool :=
  match method? bridge, method? target with
  | some b, some t =>
    b.params.length = t.params.length &&
      (b.params.zip t.params).all (fun (x, y) => erasesTo x y) &&
      erasesTo b.result t.result
  | _, _ => false

/-! ### Class names inside a descriptor -/

/-- A piece of a descriptor: one character, or a class name with its `L` and `;`. -/
inductive Segment where
  | char (c : Char)
  | className (name : List Char)
  deriving DecidableEq, Repr

/-- The segments of a text. With `some name` an `L` and `name`, in reverse, have been read and
the `;` is still to come. -/
def segmentsFrom : Option (List Char) → List Char → List Segment
  | none, [] => []
  | none, c :: rest =>
    if c = 'L' then segmentsFrom (some []) rest else .char c :: segmentsFrom none rest
  | some name, [] => .char 'L' :: name.reverse.map .char
  | some name, c :: rest =>
    if c = ';' then .className name.reverse :: segmentsFrom none rest
    else segmentsFrom (some (c :: name)) rest

/-- The segments of a text. An `L` without a `;` after it starts no class name. -/
def segments (desc : List Char) : List Segment :=
  segmentsFrom none desc

/-- The characters of a segment. -/
def Segment.chars : Segment → List Char
  | .char c => [c]
  | .className name => 'L' :: name ++ [';']

theorem flatMap_chars_segmentsFrom (name : Option (List Char)) (s : List Char) :
    (segmentsFrom name s).flatMap Segment.chars =
      name.elim [] (fun name => 'L' :: name.reverse) ++ s := by
  fun_induction segmentsFrom name s <;>
    simp_all [Segment.chars, -List.map_reverse, List.flatMap_map]

/-- The segments of a text make up the text. -/
@[simp]
theorem flatMap_chars_segments (s : List Char) : (segments s).flatMap Segment.chars = s := by
  simp [segments, flatMap_chars_segmentsFrom]

/-- The new name of a class, or the old one. -/
def ClassMap.image (f : ClassMap) (name : List Char) : List Char :=
  match f (String.ofList name) with
  | some new => new.toList
  | none => name

/-- Maps the class name of a segment. -/
def Segment.rename (f : ClassMap) : Segment → Segment
  | .char c => .char c
  | .className name => .className (f.image name)

/-- A descriptor with every class name mapped. -/
def rename (f : ClassMap) (desc : String) : String :=
  String.ofList <| (segments desc.toList).flatMap fun s => (s.rename f).chars

/-- Without new names a text stays as it is. -/
@[simp]
theorem rename_none (desc : String) : rename (fun _ => none) desc = desc := by
  have h : (fun s : Segment => (s.rename fun _ => none).chars) = Segment.chars := by
    funext s
    cases s <;> simp [Segment.rename, ClassMap.image]
  simp [rename, h]

/-- The new form of a class reference, which is a class name or the descriptor of an array. -/
def renameReference (f : ClassMap) (name : String) : Option String :=
  match name.toList with
  | '[' :: _ =>
    let new := rename f name
    if new = name then none else some new
  | _ => f name

end Relabel.Descriptor
