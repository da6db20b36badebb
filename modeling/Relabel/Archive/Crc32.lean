import Relabel.Bytes

/-!
# Check sums

The cyclic redundancy check of archives: the remainder of the bytes, lowest bit first, by the
polynomial with the bits `0xEDB88320`.
-/

namespace Relabel.Crc32

/-- Takes one bit in. -/
def shiftBit (c : UInt32) : UInt32 :=
  if c &&& 1 = 0 then c >>> 1 else (c >>> 1) ^^^ 0xEDB88320

/-- The remainder that a byte alone leaves. -/
def ofByte (n : Nat) : UInt32 :=
  Nat.repeat shiftBit 8 n.toUInt32

/-- The remainders of all bytes. -/
def table : Array UInt32 :=
  (Array.range 256).map ofByte

/-- Takes one byte in. -/
def step (c : UInt32) (b : UInt8) : UInt32 :=
  table.getD ((c ^^^ b.toUInt32) &&& 0xFF).toNat 0 ^^^ (c >>> 8)

/-- The check sum of a byte string. -/
def checksum (bytes : Bytes) : UInt32 :=
  bytes.foldl step 0xFFFFFFFF ^^^ 0xFFFFFFFF

end Relabel.Crc32
