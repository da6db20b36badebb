import Relabel.ClassFile.Attribute
import Relabel.ClassFile.Instruction

/-!
# Method bodies and their tables

What the payload of a `Code` attribute holds, and that of the tables of local variables inside it.
-/

namespace Relabel

/-- A range of instructions and the handler of the exceptions thrown there. -/
structure Handler where
  startPc : UInt16
  endPc : UInt16
  handlerPc : UInt16
  catchType : UInt16
  deriving DecidableEq, Repr

namespace Handler

/-- Reads an entry. -/
def decode : Decoder Handler := do
  let startPc ← Decoder.u16
  let endPc ← Decoder.u16
  let handlerPc ← Decoder.u16
  let catchType ← Decoder.u16
  return { startPc, endPc, handlerPc, catchType }

/-- The binary form of an entry. -/
def encode (e : Handler) : Bytes :=
  Bytes.ofUInt16 e.startPc ++ Bytes.ofUInt16 e.endPc ++ Bytes.ofUInt16 e.handlerPc ++
    Bytes.ofUInt16 e.catchType

end Handler

/-- A method body. -/
structure Code where
  maxStack : UInt16
  maxLocals : UInt16
  code : Bytes
  exceptions : Array Handler := #[]
  attributes : Array Attribute := #[]
  deriving DecidableEq, Repr

namespace Code

/-- Reads a body. -/
def decoder : Decoder Code := do
  let maxStack ← Decoder.u16
  let maxLocals ← Decoder.u16
  let length ← Decoder.u32
  let code ← Decoder.bytes length.toNat
  let exceptions ← Decoder.counted Handler.decode
  let attributes ← Attribute.decodeList
  return { maxStack, maxLocals, code, exceptions, attributes }

/-- The body at the front of a payload. -/
def decode (data : Bytes) : Except FormatError Code :=
  decoder.decode data

/-- The binary form of a body. -/
def encode (c : Code) : Except FormatError Bytes := do
  let length ← encodeLength .code c.code.length
  let count ← encodeCount .exceptionTable c.exceptions.size
  let attributes ← Attribute.encodeList .attributes c.attributes
  return Bytes.ofUInt16 c.maxStack ++ Bytes.ofUInt16 c.maxLocals ++ length ++ c.code ++ count ++
    c.exceptions.toList.flatMap Handler.encode ++ attributes

/-- The constant that the first call refers to: for a bridge, the method it forwards to. -/
def firstCall (c : Code) : Except FormatError (Option UInt16) :=
  Instruction.firstCall c.code

end Code

/-- A local variable: where it is live, its name and its type, and its slot. In a table of generic
types the type is a signature. -/
structure LocalVariable where
  startPc : UInt16
  length : UInt16
  nameIndex : UInt16
  descIndex : UInt16
  index : UInt16
  deriving DecidableEq, Repr

namespace LocalVariable

/-- Reads an entry. -/
def decoder : Decoder LocalVariable := do
  let startPc ← Decoder.u16
  let length ← Decoder.u16
  let nameIndex ← Decoder.u16
  let descIndex ← Decoder.u16
  let index ← Decoder.u16
  return { startPc, length, nameIndex, descIndex, index }

/-- The binary form of an entry. -/
def encode (v : LocalVariable) : Bytes :=
  Bytes.ofUInt16 v.startPc ++ Bytes.ofUInt16 v.length ++ Bytes.ofUInt16 v.nameIndex ++
    Bytes.ofUInt16 v.descIndex ++ Bytes.ofUInt16 v.index

/-- The table at the front of a payload. -/
def decodeTable (data : Bytes) : Except FormatError (Array LocalVariable) :=
  (Decoder.counted decoder).decode data

/-- The binary form of a table. -/
def encodeTable (table : Array LocalVariable) : Except FormatError Bytes := do
  let count ← encodeCount .localTable table.size
  return count ++ table.toList.flatMap encode

end LocalVariable

end Relabel
