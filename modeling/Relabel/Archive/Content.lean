import Relabel.Archive.Directory
import Relabel.Archive.Inflate

/-!
# Entries of archives

Reading the bytes of an entry, which may be compressed.
-/

namespace Relabel.Archive

/-- Why the bytes of an entry cannot be read. -/
inductive EntryError where
  | checksum
  | stream (fault : Inflate.Fault)
  deriving DecidableEq, Repr

/-- What is wrong, in words. -/
def EntryError.message : EntryError → String
  | .checksum => "Invalid checksum"
  | .stream .corrupt => "corrupt deflate stream"
  | .stream .incomplete => "incomplete deflate stream"

/-- The bytes of an entry as they stand in the archive. -/
def rawBytes (data : Array UInt8) (line : Line) : Except Error (Array UInt8) := do
  if line.flags % 2 = 1 then throw .encrypted
  if (← longAt data line.offset) ≠ entryMark then throw .badEntryHeader
  let nameLength ← wordAt data (line.offset + 26)
  let extraLength ← wordAt data (line.offset + 28)
  let start := line.offset + 30 + nameLength + extraLength
  if line.compression ≠ 0 ∧ line.compression ≠ 8 then throw .compression
  return data.extract start (start + line.size)

/-- The bytes of an entry. -/
def contents (line : Line) (raw : Array UInt8) : Except EntryError Bytes := do
  let bytes ← if line.compression = 0 then pure raw.toList
    else (Inflate.decode raw).mapError .stream
  if (Crc32.checksum bytes).toNat ≠ line.checksum then throw .checksum
  return bytes

end Relabel.Archive
