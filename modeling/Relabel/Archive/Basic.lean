import Relabel.Archive.Crc32

/-!
# Archives

An archive holds entries, each with a header and its bytes, and then a directory of all of them. A
record at the end, behind which only a comment may stand, tells where the directory lies. Numbers
stand least significant byte first. Archives are written with the bytes of their entries as they
are.
-/

namespace Relabel

/-- An entry of an archive. -/
structure ArchiveEntry where
  name : String
  bytes : Bytes
  deriving DecidableEq, Repr

namespace Archive

/-- Why an archive cannot be read. -/
inductive Error where
  /-- It ends within a record. -/
  | truncated
  | tooShort
  | noDirectory
  | badOffset
  /-- The record before the end record, which holds larger numbers, is missing. -/
  | noLargeEnd
  | noRoomForLargeEnd
  | badDirectoryHeader
  | badEntryHeader
  | farEntryHeader
  | multipleDisks
  | encrypted
  | compression
  | cipherLength
  | cipherVendor
  | cipherVersion
  | cipherStrength
  | noCipher
  deriving DecidableEq, Repr

/-- What is wrong, in words. -/
def Error.message : Error → String
  | .truncated => "failed to fill whole buffer"
  | .tooShort => "invalid Zip archive: Invalid zip header"
  | .noDirectory => "invalid Zip archive: Could not find central directory end"
  | .badOffset => "invalid Zip archive: Invalid central directory size or offset"
  | .noLargeEnd => "invalid Zip archive: Could not find ZIP64 central directory end"
  | .noRoomForLargeEnd => "invalid Zip archive: File cannot contain ZIP64 central directory end"
  | .badDirectoryHeader => "invalid Zip archive: Invalid Central Directory header"
  | .badEntryHeader => "invalid Zip archive: Invalid local file header"
  | .farEntryHeader => "invalid Zip archive: Archive header is too large"
  | .multipleDisks => "unsupported Zip archive: Support for multi-disk files is not implemented"
  | .encrypted => "unsupported Zip archive: Password required to decrypt file"
  | .compression => "unsupported Zip archive: Compression method not supported"
  | .cipherLength => "unsupported Zip archive: AES extra data field has an unsupported length"
  | .cipherVendor => "invalid Zip archive: Invalid AES vendor"
  | .cipherVersion => "invalid Zip archive: Invalid AES vendor version"
  | .cipherStrength => "invalid Zip archive: Invalid AES encryption strength"
  | .noCipher => "invalid Zip archive: AES encryption without AES extra data field"

/-- The messages for an error: what is wrong, and once more where that is a fault of reading. -/
def Error.chain (e : Error) : List String :=
  if e = .truncated then [e.message, e.message] else [e.message]

/-! ### Writing -/

/-- Two bytes, lowest first. -/
def word (n : Nat) : Bytes := Bytes.littleEndian 2 n

/-- Four bytes, lowest first. -/
def long (n : Nat) : Bytes := Bytes.littleEndian 4 n

/-- The marks that the three kinds of records start with. -/
def entryMark : Nat := 0x04034b50
def directoryMark : Nat := 0x02014b50
def endMark : Nat := 0x06054b50

/-- The part of an entry's description that stands both before its bytes and in the directory: the
version to read it, flags, the kind of compression, a fixed date, check sum, sizes and the length of
its name. -/
def description (e : ArchiveEntry) : Bytes :=
  let name := Bytes.ofText e.name
  let flags := if name.all (· < 128) then 0 else 0x0800
  word 20 ++ word flags ++ word 0 ++ word 0 ++ word 0x21 ++
    long (Crc32.checksum e.bytes).toNat ++ long e.bytes.length ++ long e.bytes.length ++
    word name.length ++ word 0

/-- An entry with its header. -/
def encodeEntry (e : ArchiveEntry) : Bytes :=
  long entryMark ++ description e ++ Bytes.ofText e.name ++ e.bytes

/-- The line of an entry in the directory, given where the entry starts. -/
def encodeLine (e : ArchiveEntry) (offset : Nat) : Bytes :=
  long directoryMark ++ word 0x0314 ++ description e ++ word 0 ++ word 0 ++ word 0 ++
    long 0x81A40000 ++ long offset ++ Bytes.ofText e.name

/-- The lines of all entries, the first of which starts at `offset`. -/
def encodeLines (offset : Nat) : List ArchiveEntry → Bytes
  | [] => []
  | e :: rest => encodeLine e offset ++ encodeLines (offset + (encodeEntry e).length) rest

/-- The bytes of an archive. -/
def encode (entries : List ArchiveEntry) : Bytes :=
  let body := entries.flatMap encodeEntry
  let directory := encodeLines 0 entries
  body ++ directory ++ long endMark ++ word 0 ++ word 0 ++ word entries.length ++
    word entries.length ++ long directory.length ++ long body.length ++ word 0

end Archive

end Relabel
