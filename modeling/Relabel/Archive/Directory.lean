import Relabel.Archive.Basic
import Relabel.Text.Split
import Relabel.Text.Utf8

/-!
# Directories of archives

Reading the end record of an archive and the lines of its directory. Where numbers are too large
for the end record, a locator right before it leads to a second one with more room, and where they
are too large for a line, they stand in an extra field of it. What stands before an archive shifts
all positions in it.
-/

namespace Relabel.Archive

/-! ### Numbers -/

/-- The number in `n` bytes from a position on. -/
def numberAt (data : Array UInt8) (pos : Nat) : Nat → Except Error Nat
  | 0 => .ok 0
  | n + 1 =>
    match data[pos]? with
    | some b => do return b.toNat + 256 * (← numberAt data (pos + 1) n)
    | none => .error .truncated

/-- The two bytes at a position. -/
def wordAt (data : Array UInt8) (pos : Nat) : Except Error Nat := numberAt data pos 2

/-- The four bytes at a position. -/
def longAt (data : Array UInt8) (pos : Nat) : Except Error Nat := numberAt data pos 4

/-- The eight bytes at a position. -/
def longestAt (data : Array UInt8) (pos : Nat) : Except Error Nat := numberAt data pos 8

/-- Whether a record with a mark starts at a position. -/
def startsAt (data : Array UInt8) (mark pos : Nat) : Bool :=
  match longAt data pos with
  | .ok found => found = mark
  | .error _ => false

/-- The largest numbers of two, four and eight bytes. The first two stand for numbers that are given
elsewhere. -/
def maxWord : Nat := 0xFFFF
def maxLong : Nat := 0xFFFFFFFF
def maxLongest : Nat := 0xFFFFFFFFFFFFFFFF

/-! ### The end of an archive -/

/-- The record at the end of an archive. -/
structure EndRecord where
  disk : Nat
  directoryDisk : Nat
  /-- The number of lines on this disk, and on all disks. -/
  count : Nat
  totalCount : Nat
  size : Nat
  offset : Nat
  commentLength : Nat
  deriving DecidableEq, Repr

/-- Whether one of the numbers is given elsewhere. -/
def EndRecord.isTooSmall (r : EndRecord) : Bool :=
  r.disk = maxWord || r.directoryDisk = maxWord || r.count = maxWord || r.totalCount = maxWord ||
    r.size = maxLong || r.offset = maxLong

/-- Reads the end record at a position, with the comment behind it. -/
def readEnd (data : Array UInt8) (pos : Nat) : Except Error EndRecord := do
  let disk ← wordAt data (pos + 4)
  let directoryDisk ← wordAt data (pos + 6)
  let count ← wordAt data (pos + 8)
  let totalCount ← wordAt data (pos + 10)
  let size ← longAt data (pos + 12)
  let offset ← longAt data (pos + 16)
  let commentLength ← wordAt data (pos + 20)
  if data.size < pos + 22 + commentLength then throw .truncated
  return { disk, directoryDisk, count, totalCount, size, offset, commentLength }

/-- The last position, from `pos` down through `n` more, where the end record starts. -/
def findEnd (data : Array UInt8) (pos : Nat) : Nat → Option Nat
  | 0 => if startsAt data endMark pos then some pos else none
  | n + 1 => if startsAt data endMark pos then some pos else findEnd data (pos - 1) n

/-- The marks of the locator and of the end record with more room. -/
def locatorMark : Nat := 0x07064b50
def largeEndMark : Nat := 0x06064b50

/-- Where the directory starts, how many lines it has, and by how much positions are shifted. -/
structure Extent where
  start : Nat
  count : Nat
  shift : Nat
  deriving DecidableEq, Repr

/-- The extent that an end record gives by itself: the directory ends where the record starts. -/
def plainExtent (r : EndRecord) (pos : Nat) : Except Error Extent := do
  if pos < r.size + r.offset then throw .badOffset
  -- The directory ends at the record; what the numbers leave over stands before the archive.
  let shift := pos - (r.size + r.offset)
  return { start := r.offset + shift, count := r.count, shift }

/-- The first position, from `pos` on through `n` in all, where the end record with more room
starts. -/
def findLargeEnd (data : Array UInt8) (pos : Nat) : Nat → Option Nat
  | 0 => none
  | n + 1 => if startsAt data largeEndMark pos then some pos else findLargeEnd data (pos + 1) n

/-- The extent that the locator at a position leads to. The record it leads to lies where it says or
further on, by as much as positions are shifted, and before the locator. -/
def largeExtent (data : Array UInt8) (r : EndRecord) (pos locator : Nat) :
    Except Error Extent := do
  let disk ← longAt data (locator + 4)
  let nominal ← longestAt data (locator + 8)
  if !r.isTooSmall ∧ r.disk ≠ disk then throw .multipleDisks
  if pos < 60 then throw .noRoomForLargeEnd
  match findLargeEnd data nominal (pos - 60 + 1 - nominal) with
  | none => throw .noLargeEnd
  | some found =>
    if (← longAt data (found + 16)) ≠ (← longAt data (found + 20)) then throw .multipleDisks
    let count ← longestAt data (found + 32)
    let offset ← longestAt data (found + 48)
    let shift := found - nominal
    if maxLongest < offset + shift then throw .badOffset
    return { start := offset + shift, count, shift }

/-- The extent of the directory. -/
def extent (data : Array UInt8) : Except Error Extent := do
  if data.size < 22 then throw .tooShort
  let last := data.size - 22
  match findEnd data last (min last maxWord) with
  | none => throw .noDirectory
  | some pos =>
    let r ← readEnd data pos
    if !r.isTooSmall ∧ r.disk ≠ r.directoryDisk then throw .multipleDisks
    let behind := 42 + r.commentLength
    if behind ≤ data.size ∧ startsAt data locatorMark (data.size - behind) then
      largeExtent data r pos (data.size - behind)
    else plainExtent r pos

/-! ### Lines -/

/-- The characters for the bytes from 128 on in names that are not marked as Unicode. -/
def upperNames : List Char :=
  ("ÇüéâäàåçêëèïîìÄÅÉæÆôöòûùÿÖÜ¢£¥₧ƒáíóúñÑªº¿⌐¬½¼¡«»░▒▓│┤╡╢╖╕╣║╗╝╜╛┐" ++
    "└┴┬├─┼╞╟╚╔╩╦╠═╬╧╨╤╥╙╘╒╓╫╪┘┌█▄▌▐▀" ++
    "αßΓπΣσµτΦΘΩδ∞φε∩≡±≥≤⌠⌡÷≈°∙·√ⁿ²■\u00A0").toList

/-- The text of a name that is not marked as Unicode. -/
def plainName (bytes : Bytes) : String :=
  String.ofList <| bytes.map fun b =>
    if b < 128 then Char.ofNat b.toNat else upperNames.getD (b.toNat - 128) ' '

/-- The line of an entry in the directory. -/
structure Line where
  name : String
  flags : Nat
  compression : Nat
  checksum : Nat
  /-- The number of bytes in the archive. -/
  size : Nat
  /-- The number of bytes of the entry itself. -/
  fullSize : Nat
  offset : Nat
  /-- Whether the line tells how the entry is enciphered. -/
  hasCipher : Bool := false
  deriving DecidableEq, Repr

/-- Whether the entry stands for a directory. -/
def Line.isDirectory (line : Line) : Bool :=
  Text.endsWith line.name "/" || Text.endsWith line.name "\\"

/-- A number of `n` bytes at the start of a list, and what follows it. -/
def takeNumber? : Nat → Bytes → Option (Nat × Bytes)
  | 0, bytes => some (0, bytes)
  | _ + 1, [] => none
  | n + 1, b :: rest => (takeNumber? n rest).map fun (high, rest) => (b.toNat + 256 * high, rest)

/-- Reads the numbers that were too large for a line, in this order: the two sizes and the offset.
Stops where the bytes end, and gives what is left of them otherwise. -/
def Line.readLarge (line : Line) (bytes : Bytes) : Line × Option Bytes := Id.run do
  let mut line := line
  let mut bytes := bytes
  if line.fullSize = maxLong then
    match takeNumber? 8 bytes with
    | some (n, rest) => line := { line with fullSize := n }; bytes := rest
    | none => return (line, none)
  if line.size = maxLong then
    match takeNumber? 8 bytes with
    | some (n, rest) => line := { line with size := n }; bytes := rest
    | none => return (line, none)
  if line.offset = maxLong then
    match takeNumber? 8 bytes with
    | some (n, rest) => line := { line with offset := n }; bytes := rest
    | none => return (line, none)
  return (line, some bytes)

/-- Reads how an entry is enciphered; the field has seven bytes. Stops where the bytes end. -/
def Line.readCipher (line : Line) (bytes : Bytes) : Except Error (Line × Option Bytes) := do
  match takeNumber? 2 bytes, takeNumber? 2 (bytes.drop 2), takeNumber? 1 (bytes.drop 4),
      takeNumber? 2 (bytes.drop 5) with
  | some (version, _), some (vendor, _), some (strength, _), some (compression, rest) =>
    if vendor ≠ 0x4541 then throw .cipherVendor
    if version ≠ 1 ∧ version ≠ 2 then throw .cipherVersion
    if strength = 0 ∨ 3 < strength then throw .cipherStrength
    return ({ line with compression, hasCipher := true }, some rest)
  | _, _, _, _ => return (line, none)

/-- Reads the extra fields of a line, each with its kind and length in front. Fields of other kinds
are passed over, and so is what the fields do not use of their lengths. -/
def Line.readExtra : Nat → Bytes → Line → Except Error Line
  | 0, _, line => return line
  | fuel + 1, bytes, line => do
    match takeNumber? 2 bytes, takeNumber? 2 (bytes.drop 2) with
    | some (kind, _), some (length, rest) =>
      if kind = 0x0001 then
        match line.readLarge rest with
        | (line, none) => return line
        | (line, some after) =>
          let used := rest.length - after.length
          readExtra fuel (after.drop (length - used)) line
      else if kind = 0x9901 then
        if length ≠ 7 then throw .cipherLength
        match ← line.readCipher rest with
        | (line, none) => return line
        | (line, some after) => readExtra fuel (after.drop length) line
      else readExtra fuel (rest.drop length) line
    | _, _ => return line

/-- The kind of compression that stands for an enciphered entry. -/
def cipherCompression : Nat := 99

/-- Reads the line at a position, and gives the position behind it. -/
def readLine (data : Array UInt8) (shift pos : Nat) : Except Error (Line × Nat) := do
  if (← longAt data pos) ≠ directoryMark then throw .badDirectoryHeader
  let flags ← wordAt data (pos + 8)
  let compression ← wordAt data (pos + 10)
  let checksum ← longAt data (pos + 16)
  let size ← longAt data (pos + 20)
  let fullSize ← longAt data (pos + 24)
  let nameLength ← wordAt data (pos + 28)
  let extraLength ← wordAt data (pos + 30)
  let commentLength ← wordAt data (pos + 32)
  let offset ← longAt data (pos + 42)
  let extra := pos + 46 + nameLength
  -- The comment is passed over.
  let stop := extra + extraLength + commentLength
  if data.size < stop then throw .truncated
  let name := (data.extract (pos + 46) extra).toList
  let name := if flags / 0x0800 % 2 = 1 then Utf8.decodeLossy name else plainName name
  let line : Line := { name, flags, compression, checksum, size, fullSize, offset }
  let line ← line.readExtra extraLength (data.extract extra (extra + extraLength)).toList
  if line.compression = cipherCompression ∧ !line.hasCipher then throw .noCipher
  if maxLongest < line.offset + shift then throw .farEntryHeader
  return ({ line with offset := line.offset + shift }, stop)

/-- Reads `n` lines from a position on. -/
def readLines (data : Array UInt8) (shift : Nat) : Nat → Nat → Except Error (List Line)
  | 0, _ => .ok []
  | n + 1, pos => do
    let (line, pos) ← readLine data shift pos
    return line :: (← readLines data shift n pos)

/-- The lines of an archive, with the positions where their entries start. -/
def directory (data : Array UInt8) : Except Error (List Line) := do
  let e ← extent data
  readLines data e.shift e.count e.start

end Relabel.Archive
