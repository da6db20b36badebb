import Relabel.ClassFile.Decoder
import Relabel.ClassFile.ModifiedUtf8

/-!
# Constants

The entries of a constant pool with their binary form. Entries refer to each other by index.
-/

namespace Relabel

/-- The kinds of member references. -/
inductive ReferenceKind where
  | field
  | method
  | interfaceMethod
  deriving DecidableEq, Repr

/-- An entry of a constant pool. -/
inductive Constant where
  /-- Slot 0, and the slot after a `long` or `double`. -/
  | unusable
  | utf8 (text : String)
  /-- A text with surrogates that are not paired: as it reads, and as it is stored. -/
  | lossyUtf8 (text : String) (raw : Bytes)
  | integer (value : Int32)
  | float (bits : UInt32)
  | long (value : Int64)
  | double (bits : UInt64)
  | ofClass (name : UInt16)
  | string (value : UInt16)
  /-- A reference to a member: its class, and its name and descriptor. -/
  | member (kind : ReferenceKind) (owner names : UInt16)
  | nameAndType (name desc : UInt16)
  | methodHandle (kind : UInt8) (reference : UInt16)
  | methodType (desc : UInt16)
  | dynamic (bootstrap names : UInt16)
  | invokeDynamic (bootstrap names : UInt16)
  | ofModule (name : UInt16)
  | ofPackage (name : UInt16)
  deriving DecidableEq, Repr

namespace Constant

/-- Whether the entry takes two slots. -/
def isWide : Constant → Bool
  | .long _ | .double _ => true
  | _ => false

/-! ### Binary form -/

/-- The tag of a member reference. -/
def memberTag : ReferenceKind → UInt8
  | .field => 9
  | .method => 10
  | .interfaceMethod => 11

/-- Reads a text after its tag, for the entry at an index. -/
def decodeUtf8 (index : UInt16) : Decoder Constant := do
  let length ← Decoder.u16
  let raw ← Decoder.bytes length.toNat
  match ModifiedUtf8.decode? raw with
  | some { text, exact := true } => return .utf8 text
  | some { text, exact := false } => return .lossyUtf8 text raw
  | none => throw (.badUtf8 index)

/-- Reads what follows two indices into a constant. -/
def decodePair (make : UInt16 → UInt16 → Constant) : Decoder Constant := do
  let first ← Decoder.u16
  let second ← Decoder.u16
  return make first second

/-- Reads the entry at an index. -/
def decode (index : UInt16) : Decoder Constant := do
  let tag ← Decoder.u8
  match tag.toNat with
  | 1 => decodeUtf8 index
  | 3 => return .integer (← Decoder.u32).toInt32
  | 4 => return .float (← Decoder.u32)
  | 5 => return .long (← Decoder.u64).toInt64
  | 6 => return .double (← Decoder.u64)
  | 7 => return .ofClass (← Decoder.u16)
  | 8 => return .string (← Decoder.u16)
  | 9 => decodePair (.member .field)
  | 10 => decodePair (.member .method)
  | 11 => decodePair (.member .interfaceMethod)
  | 12 => decodePair .nameAndType
  | 15 =>
    let kind ← Decoder.u8
    let reference ← Decoder.u16
    return .methodHandle kind reference
  | 16 => return .methodType (← Decoder.u16)
  | 17 => decodePair .dynamic
  | 18 => decodePair .invokeDynamic
  | 19 => return .ofModule (← Decoder.u16)
  | 20 => return .ofPackage (← Decoder.u16)
  | _ => throw (.badConstantTag tag index)

/-- A tag and one index. -/
def tagged (tag : UInt8) (a : UInt16) : Bytes :=
  tag :: Bytes.ofUInt16 a

/-- A tag and two indices. -/
def tagged2 (tag : UInt8) (a b : UInt16) : Bytes :=
  tag :: Bytes.ofUInt16 a ++ Bytes.ofUInt16 b

/-- The binary form of the entry at an index. -/
def encode (index : UInt16) : Constant → Except FormatError Bytes
  | .unusable => .ok []
  | .utf8 text =>
    let raw := ModifiedUtf8.encode text
    if raw.length < 65536 then .ok (1 :: Bytes.ofUInt16 raw.length.toUInt16 ++ raw)
    else .error (.badUtf8 index)
  | .lossyUtf8 _ raw => do
    let length ← encodeCount .utf8 raw.length
    return 1 :: length ++ raw
  | .integer value => .ok (3 :: Bytes.ofUInt32 value.toUInt32)
  | .float bits => .ok (4 :: Bytes.ofUInt32 bits)
  | .long value => .ok (5 :: Bytes.ofUInt64 value.toUInt64)
  | .double bits => .ok (6 :: Bytes.ofUInt64 bits)
  | .ofClass name => .ok (tagged 7 name)
  | .string value => .ok (tagged 8 value)
  | .member kind owner names => .ok (tagged2 (memberTag kind) owner names)
  | .nameAndType name desc => .ok (tagged2 12 name desc)
  | .methodHandle kind reference => .ok (15 :: kind :: Bytes.ofUInt16 reference)
  | .methodType desc => .ok (tagged 16 desc)
  | .dynamic bootstrap names => .ok (tagged2 17 bootstrap names)
  | .invokeDynamic bootstrap names => .ok (tagged2 18 bootstrap names)
  | .ofModule name => .ok (tagged 19 name)
  | .ofPackage name => .ok (tagged 20 name)

end Constant

end Relabel
