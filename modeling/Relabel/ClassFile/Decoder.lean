import Relabel.ClassFile.Error

/-!
# Decoders

A decoder reads from the front of its input and leaves the rest. The input remembers how much was
read before, for the offset that an error names.
-/

namespace Relabel

/-- The bytes left to read and the number of those read before them. -/
structure Input where
  rest : Bytes
  offset : Nat := 0
  deriving DecidableEq, Repr

/-- Reads a value from the front of an input. -/
abbrev Decoder := EStateM FormatError Input

namespace Decoder

/-- The value a decoder reads from a byte string, whatever follows it. -/
def decode (d : Decoder α) (bytes : Bytes) : Except FormatError α :=
  match d.run { rest := bytes } with
  | .ok a _ => .ok a
  | .error e _ => .error e

/-- The bytes that are left. -/
def rest : Decoder Bytes := fun input => .ok input.rest input

/-- Reads one byte. -/
def u8 : Decoder UInt8 := fun input =>
  match input.rest with
  | a :: rest => .ok a { rest, offset := input.offset + 1 }
  | _ => .error (.truncated input.offset) input

/-- Reads a 16-bit number. -/
def u16 : Decoder UInt16 := fun input =>
  match input.rest with
  | a :: b :: rest => .ok (Bytes.toUInt16 a b) { rest, offset := input.offset + 2 }
  | _ => .error (.truncated input.offset) input

/-- Reads a 32-bit number. -/
def u32 : Decoder UInt32 := fun input =>
  match input.rest with
  | a :: b :: c :: d :: rest => .ok (Bytes.toUInt32 a b c d) { rest, offset := input.offset + 4 }
  | _ => .error (.truncated input.offset) input

/-- Reads a 64-bit number as two halves. -/
def u64 : Decoder UInt64 := do
  let high ← u32
  let low ← u32
  return Bytes.toUInt64 high low

/-- Reads `n` bytes. -/
def bytes (n : Nat) : Decoder Bytes := fun input =>
  let taken := input.rest.take n
  if taken.length = n then .ok taken { rest := input.rest.drop n, offset := input.offset + n }
  else .error (.truncated input.offset) input

@[simp]
theorem u8_cons (b : UInt8) (rest : Bytes) (offset : Nat) :
    u8 { rest := b :: rest, offset } = .ok b { rest, offset := offset + 1 } := rfl

@[simp]
theorem u16_append (x : UInt16) (rest : Bytes) (offset : Nat) :
    u16 { rest := Bytes.ofUInt16 x ++ rest, offset } = .ok x { rest, offset := offset + 2 } := by
  simp [u16, Bytes.ofUInt16]

@[simp]
theorem u32_append (x : UInt32) (rest : Bytes) (offset : Nat) :
    u32 { rest := Bytes.ofUInt32 x ++ rest, offset } = .ok x { rest, offset := offset + 4 } := by
  simp [u32, Bytes.ofUInt32]

@[simp]
theorem bytes_append (taken rest : Bytes) (offset : Nat) :
    bytes taken.length { rest := taken ++ rest, offset } =
      .ok taken { rest, offset := offset + taken.length } := by
  simp [bytes]

/-- Fails at the place reached, as if the data ended there. -/
def stop : Decoder α := fun input => .error (.truncated input.offset) input

/-- Reads a value `n` times, after those already read. -/
def repeatFrom (d : Decoder α) : Nat → Array α → Decoder (Array α)
  | 0, read => pure read
  | n + 1, read => do
    let a ← d
    repeatFrom d n (read.push a)

/-- Reads a 16-bit count and as many values. -/
def counted (d : Decoder α) : Decoder (Array α) := do
  let count ← u16
  repeatFrom d count.toNat #[]

end Decoder

/-! ### Writing counts -/

/-- A count of 16 bits. -/
def encodeCount (part : SizedPart) (n : Nat) : Except FormatError Bytes :=
  if n < 65536 then .ok (Bytes.ofUInt16 n.toUInt16) else .error (.tooLarge part)

/-- A length of 32 bits. -/
def encodeLength (part : SizedPart) (n : Nat) : Except FormatError Bytes :=
  if n < 4294967296 then .ok (Bytes.ofUInt32 n.toUInt32) else .error (.tooLarge part)

/-- The forms of all values in a row. -/
def encodeAll (encode : α → Except FormatError Bytes) (values : Array α) :
    Except FormatError Bytes := do
  let forms ← values.toList.mapM encode
  return forms.flatten

end Relabel
