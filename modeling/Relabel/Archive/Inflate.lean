import Relabel.Bytes

/-!
# Compressed entries

Reading of compressed data. A stream is a list of blocks: plain bytes, or symbols in a prefix code
that stand for a byte each or for a copy of bytes written before. Bits are taken from each byte
lowest first. A code is given by the lengths of its words, which are in order of length and, among
those of one length, of symbol. Copies may reach back before the first byte, where there are
zeros.
-/

namespace Relabel.Inflate

/-- Why a stream is not one of compressed data. -/
inductive Fault where
  /-- It breaks a rule of the format. -/
  | corrupt
  /-- It ends before its last block does. -/
  | incomplete
  deriving DecidableEq, Repr

/-- What is left to read, and what has been written. -/
structure State where
  data : Array UInt8
  /-- The number of bits read. -/
  pos : Nat := 0
  out : Array UInt8 := #[]

/-- Steps of reading compressed data. -/
abbrev InflateM := EStateM Fault State

/-- Gives up where a rule of the format is broken. -/
def corrupt : InflateM α :=
  throw .corrupt

/-! ### Bits and bytes -/

/-- The next bit. -/
def bit : InflateM Nat := do
  let s ← get
  match s.data[s.pos / 8]? with
  | some b =>
    set { s with pos := s.pos + 1 }
    return (b.toNat >>> (s.pos % 8)) % 2
  | none => throw .incomplete

/-- The number with the next `n` bits, lowest first. -/
def bits : Nat → InflateM Nat
  | 0 => return 0
  | n + 1 => do
    let low ← bit
    return low + 2 * (← bits n)

/-- Writes a byte. -/
def emit (b : UInt8) : InflateM Unit :=
  modify fun s => { s with out := s.out.push b }

/-- The byte that lies `distance` back; zero where that is before the first one. -/
def State.back (s : State) (distance : Nat) : UInt8 :=
  if s.out.size < distance then 0 else s.out.getD (s.out.size - distance) 0

/-- Writes `n` bytes once more, beginning with the one `distance` back. -/
def copy (distance : Nat) : Nat → InflateM Unit
  | 0 => return
  | n + 1 => do
    emit ((← get).back distance)
    copy distance n

/-! ### Prefix codes -/

/-- A prefix code. -/
inductive Code where
  /-- The number of words of each length from 1 to 15, and the symbols in the order of their words.
  Every sequence of bits starts with a word. -/
  | full (counts : List Nat) (symbols : Array Nat)
  /-- A single word of this length, all of whose bits are zeros. -/
  | single (length symbol : Nat)
  /-- No words. -/
  | none

/-- The symbols with words, by length and in order. -/
def symbolsByLength (lengths : List Nat) : List (Nat × Nat) :=
  (List.range' 1 15).flatMap fun length =>
    lengths.zipIdx.filterMap fun (l, symbol) => if l = length then some (l, symbol) else Option.none

/-- The number of sequences of 15 bits. -/
def allSequences : Nat := 0x8000

/-- The number of sequences of 15 bits that start with a word, counted for each word. -/
def sequencesWith (words : List (Nat × Nat)) : Nat :=
  words.foldl (fun total (length, _) => total + (allSequences >>> length)) 0

/-- The code in which symbol `i` has a word of the `i`-th length; length 0 means that it has none.
Two or more words have to make up a full code. -/
def Code.ofLengths? (lengths : List Nat) : Option Code :=
  let words := symbolsByLength lengths
  if sequencesWith words = allSequences then
    some (.full ((List.range' 1 15).map lengths.count) (words.map (·.2)).toArray)
  else match words with
    | [] => some .none
    | [(length, symbol)] => some (.single length symbol)
    | _ => Option.none

/-- Reads a symbol. `word` is the word so far, `first` the first word of its length, and `index` the
number of words that are shorter. -/
def symbolFrom (symbols : Array Nat) : List Nat → Nat → Nat → Nat → InflateM Nat
  | [], _, _, _ => corrupt
  | count :: counts, word, first, index => do
    let word := word + (← bit)
    if word < first + count then
      match symbols[index + (word - first)]? with
      | some symbol => return symbol
      | none => corrupt
    -- The first word that is longer by a bit follows the last word of this length.
    else symbolFrom symbols counts (2 * word) (2 * (first + count)) (index + count)

/-- The bits of a word that are looked up together. -/
def lookupBits : Nat := 10

/-- Reads the only word of a code, of which `left` bits are left and `read` have been read. Another
bit is a fault among those looked up together, and after them stands for the symbol zero. -/
def singleFrom (symbol : Nat) : Nat → Nat → InflateM Nat
  | 0, _ => return symbol
  | left + 1, read => do
    if (← bit) = 0 then singleFrom symbol left (read + 1)
    else if read < lookupBits then corrupt
    else return 0

/-- Reads a symbol. -/
def Code.symbol : Code → InflateM Nat
  | .full counts symbols => symbolFrom symbols counts 0 0 0
  | .single length symbol => singleFrom symbol length 0
  | .none => do
    let _ ← bit
    corrupt

/-- Reads on with a code, if there is one. -/
def codeOr (code : Option Code) : InflateM Code :=
  code.elim corrupt pure

/-! ### Blocks -/

/-- The least length of a copy and the number of bits that add to it, by symbol less 257. -/
def lengthTable : List (Nat × Nat) := [
  (3, 0), (4, 0), (5, 0), (6, 0), (7, 0), (8, 0), (9, 0), (10, 0), (11, 1), (13, 1), (15, 1),
  (17, 1), (19, 2), (23, 2), (27, 2), (31, 2), (35, 3), (43, 3), (51, 3), (59, 3), (67, 4),
  (83, 4), (99, 4), (115, 4), (131, 5), (163, 5), (195, 5), (227, 5), (258, 0)]

/-- The least distance of a copy and the number of bits that add to it, by symbol. -/
def distanceTable : List (Nat × Nat) := [
  (1, 0), (2, 0), (3, 0), (4, 0), (5, 1), (7, 1), (9, 2), (13, 2), (17, 3), (25, 3), (33, 4),
  (49, 4), (65, 5), (97, 5), (129, 6), (193, 6), (257, 7), (385, 7), (513, 8), (769, 8),
  (1025, 9), (1537, 9), (2049, 10), (3073, 10), (4097, 11), (6145, 11), (8193, 12), (12289, 12),
  (16385, 13), (24577, 13)]

/-- Reads the number that an entry of a table begins. -/
def fromTable (entries : List (Nat × Nat)) (symbol : Nat) : InflateM Nat :=
  match entries[symbol]? with
  | some (least, extra) => do return least + (← bits extra)
  | none => corrupt

/-- Reads symbols up to the end of the block. Each takes at least one bit. -/
def symbols (literals distances : Code) : Nat → InflateM Unit
  | 0 => corrupt
  | fuel + 1 => do
    let symbol ← literals.symbol
    if symbol < 256 then
      emit symbol.toUInt8
      symbols literals distances fuel
    else if symbol = 256 then return
    else
      let length ← fromTable lengthTable (symbol - 257)
      let distance ← fromTable distanceTable (← distances.symbol)
      copy distance length
      symbols literals distances fuel

/-- The lengths of the words in blocks that bring no codes of their own. -/
def fixedLengths : List Nat × List Nat :=
  (List.replicate 144 8 ++ List.replicate 112 9 ++ List.replicate 24 7 ++ List.replicate 8 8,
    List.replicate 32 5)

/-- The order in which the lengths of the words for lengths stand. -/
def lengthOrder : List Nat :=
  [16, 17, 18, 0, 8, 7, 9, 6, 10, 5, 11, 4, 12, 3, 13, 2, 14, 1, 15]

/-- Reads lengths, given those read so far in reverse, until there are `n`. -/
def readLengths (code : Code) (n : Nat) : Nat → List Nat → InflateM (List Nat)
  | 0, _ => corrupt
  | fuel + 1, read => do
    if n < read.length then corrupt
    else if n = read.length then return read.reverse
    else
      let symbol ← code.symbol
      match symbol, read with
      -- There is no length to repeat.
      | 16, [] => corrupt
      | 16, last :: _ =>
        let count ← bits 2
        readLengths code n fuel (List.replicate (3 + count) last ++ read)
      | 17, _ =>
        let count ← bits 3
        readLengths code n fuel (List.replicate (3 + count) 0 ++ read)
      | 18, _ =>
        let count ← bits 7
        readLengths code n fuel (List.replicate (11 + count) 0 ++ read)
      | length, _ => readLengths code n fuel (length :: read)

/-- Reads the lengths of the words of the two codes that a block brings. The words for the lengths
themselves have to make up a full code. -/
def readCodeLengths : InflateM (List Nat × List Nat) := do
  let literals := 257 + (← bits 5)
  let distances := 1 + (← bits 5)
  let count := 4 + (← bits 4)
  if 286 < literals ∨ 30 < distances then corrupt
  let given ← (lengthOrder.take count).mapM fun symbol => do return (symbol, ← bits 3)
  match Code.ofLengths? ((List.range 19).map fun symbol => (given.lookup symbol).getD 0) with
  | some (.full counts symbols) =>
    let code := Code.full counts symbols
    -- The lengths of both codes stand in one row, and a repetition may cross the border.
    let lengths ← readLengths code (literals + distances) (literals + distances + 1) []
    return (lengths.take literals, lengths.drop literals)
  | _ => corrupt

/-- Reads the symbols of a block, given the lengths of the words of its two codes. -/
def codedBlock (size : Nat) (lengths : List Nat × List Nat) : InflateM Unit := do
  let literals ← codeOr (Code.ofLengths? lengths.1)
  let distances ← codeOr (Code.ofLengths? lengths.2)
  symbols literals distances size

/-- Reads a block of plain bytes. -/
def plainBlock : InflateM Unit := do
  -- Plain bytes start with the next whole byte.
  modify fun s => { s with pos := (s.pos + 7) / 8 * 8 }
  let length ← bits 16
  let check ← bits 16
  if length + check ≠ 0xFFFF then corrupt
  (List.range length).forM fun _ => do emit (← bits 8).toUInt8

/-- Reads blocks up to the last one. Each takes at least three bits. -/
def blocks (size : Nat) : Nat → InflateM Unit
  | 0 => corrupt
  | fuel + 1 => do
    let last ← bit
    match ← bits 2 with
    | 0 => plainBlock
    | 1 => codedBlock size fixedLengths
    | 2 => codedBlock size (← readCodeLengths)
    | _ => corrupt
    if last = 1 then return
    blocks size fuel

/-- The bytes that compressed data stand for. -/
def decode (data : Array UInt8) : Except Fault Bytes :=
  -- More blocks or symbols than bits cannot be read.
  let size := 8 * data.size + 1
  match blocks size size { data } with
  | .ok _ s => .ok s.out.toList
  | .error e _ => .error e

end Relabel.Inflate
