import Relabel.ClassFile.Pool

/-!
# Attributes

An attribute is a name and a payload. Payloads are kept as they are unless someone asks for what
they hold.
-/

namespace Relabel

/-- An attribute of a class, a member, a method body or a record component. -/
structure Attribute where
  nameIndex : UInt16
  data : Bytes
  deriving DecidableEq, Repr

namespace Attribute

/-- Whether the attribute has this name. -/
def isNamed (pool : Pool) (name : String) (a : Attribute) : Bool :=
  match pool.utf8 a.nameIndex with
  | .ok n => n = name
  | .error _ => false

/-- The first attribute with this name. -/
def find? (attributes : Array Attribute) (pool : Pool) (name : String) : Option Attribute :=
  attributes.find? (isNamed pool name)

/-- The index that is all a payload holds. -/
def index? (a : Attribute) : Option UInt16 :=
  match a.data with
  | [high, low] => some (Bytes.toUInt16 high low)
  | _ => none

/-- The text an attribute with this name leads to, where there is one that holds an index. -/
def text? (attributes : Array Attribute) (pool : Pool) (name : String) :
    Except FormatError (Option String) :=
  match (find? attributes pool name).bind index? with
  | some i => some <$> pool.utf8 i
  | none => .ok none

/-! ### Binary form -/

/-- Reads an attribute. -/
def decode : Decoder Attribute := do
  let nameIndex ← Decoder.u16
  let length ← Decoder.u32
  let data ← Decoder.bytes length.toNat
  return { nameIndex, data }

/-- The binary form of an attribute. -/
def encode (a : Attribute) : Except FormatError Bytes := do
  let length ← encodeLength .attribute a.data.length
  return Bytes.ofUInt16 a.nameIndex ++ length ++ a.data

/-- Reads a list of attributes. -/
def decodeList : Decoder (Array Attribute) :=
  Decoder.counted decode

/-- The binary form of a list of attributes, which counts as this part. -/
def encodeList (part : SizedPart) (attributes : Array Attribute) :
    Except FormatError Bytes := do
  let count ← encodeCount part attributes.size
  let forms ← encodeAll encode attributes
  return count ++ forms

end Attribute

end Relabel
