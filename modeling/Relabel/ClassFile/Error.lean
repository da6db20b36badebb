import Relabel.Bytes

/-!
# Errors of the class file format

Why a byte string is no class file, a constant is not what it is used for, or a class does not fit
the format.
-/

namespace Relabel

/-- What a constant pool index was expected to lead to. -/
inductive ConstantRole where
  | utf8
  | ofClass
  | nameAndType
  | member
  deriving DecidableEq, Repr

/-- The role in words. -/
def ConstantRole.text : ConstantRole → String
  | .utf8 => "Utf8"
  | .ofClass => "Class"
  | .nameAndType => "NameAndType"
  | .member => "member reference"

/-- A part of a class file whose size is limited. -/
inductive SizedPart where
  | pool
  | utf8
  | interfaces
  | members
  | attributes
  | attribute
  | code
  | exceptionTable
  | localTable
  | methodCode
  | componentAttributes
  deriving DecidableEq, Repr

/-- The part in words. -/
def SizedPart.text : SizedPart → String
  | .pool => "constant pool"
  | .utf8 => "Utf8 constant"
  | .interfaces => "interface list"
  | .members => "member list"
  | .attributes => "attribute list"
  | .attribute => "attribute"
  | .code => "code"
  | .exceptionTable => "exception table"
  | .localTable => "local variable table"
  | .methodCode => "method code"
  | .componentAttributes => "record component attributes"

/-- Why a class cannot be read, used or written. -/
inductive FormatError where
  /-- The data end before what is to be read at an offset. -/
  | truncated (offset : Nat)
  | badMagic (magic : UInt32)
  | badConstantTag (tag : UInt8) (index : UInt16)
  | badConstant (index : UInt16) (expected : ConstantRole)
  /-- The text of a constant cannot be read, or is too long to be written. -/
  | badUtf8 (index : UInt16)
  | badInstruction (pc : Nat) (opcode : UInt8)
  | poolOverflow
  | tooLarge (part : SizedPart)
  | trailingData (count : Nat)
  deriving DecidableEq, Repr

/-- The error in words. -/
def FormatError.message : FormatError → String
  | .truncated offset => s!"unexpected end of data at offset {offset}"
  | .badMagic magic => "bad magic number 0x" ++ Bytes.hexNumber 8 magic.toNat
  | .badConstantTag tag index => s!"unknown constant tag {tag.toNat} at index {index.toNat}"
  | .badConstant index expected => s!"constant #{index.toNat} is not a valid {expected.text}"
  | .badUtf8 index => s!"malformed modified UTF-8 in constant #{index.toNat}"
  | .badInstruction pc opcode =>
    "unknown opcode 0x" ++ Bytes.hexNumber 2 opcode.toNat ++ " at pc " ++ toString pc
  | .poolOverflow => "constant pool exceeds 65535 entries"
  | .tooLarge part => part.text ++ " does not fit in the class file format"
  | .trailingData count => s!"{count} trailing bytes after class file"

end Relabel
