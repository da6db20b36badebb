import Relabel.Text.CharClass

/-!
# Ranges of UTF-8 forms

The UTF-8 forms of a range of code points as sequences of ranges of bytes: the forms are those
that take each of their bytes from the range at the same place, in one of the sequences.
-/

namespace Relabel.Text

/-- The UTF-8 form of a code point. -/
def utf8Form (n : Nat) : List Nat :=
  if n < 0x80 then [n]
  else if n < 0x800 then [0xc0 + n / 64, 0x80 + n % 64]
  else if n < 0x10000 then [0xe0 + n / 4096, 0x80 + n / 64 % 64, 0x80 + n % 64]
  else [0xf0 + n / 262144, 0x80 + n / 4096 % 64, 0x80 + n / 64 % 64, 0x80 + n % 64]

/-- A range cut so that each piece either lies in one block of code points or is made of whole
blocks, where a block has 64 code points to the power of `level`, and so for the levels above, as
many as `more` says. -/
def blockPieces : Nat → Nat → Nat → Nat → List (Nat × Nat)
  | 0, _, low, high => [(low, high)]
  | more + 1, level, low, high =>
    let block := 1 <<< (6 * level)
    if low / block = high / block then [(low, high)]
    else
      let (front, low) :=
        if low % block = 0 then ([], low)
        else ([(low, low / block * block + block - 1)], low / block * block + block)
      let (back, next) :=
        if (high + 1) % block = 0 then ([], high + 1)
        else ([(high / block * block, high)], high / block * block)
      let inner := if low < next then blockPieces more (level + 1) low (next - 1) else []
      front ++ inner ++ back

/-- The ranges of code points whose UTF-8 forms have the same number of bytes. -/
def formLengths : List (Nat × Nat) :=
  [(0, 0x7f), (0x80, 0x7ff), (0x800, 0xd7ff), (0xe000, 0xffff), (0x10000, 0x10ffff)]

/-- The sequences of ranges of bytes for a range of code points, in ascending order. -/
def byteRanges (low high : Nat) : List (List (Nat × Nat)) :=
  formLengths.flatMap fun (first, last) =>
    let low := max low first
    let high := min high last
    if high < low then []
    else if last = 0x7f then [[(low, high)]]
    else (blockPieces 3 1 low high).map fun (a, b) => (utf8Form a).zip (utf8Form b)

/-- The sequences of ranges of bytes for a class, in ascending order. -/
def CharClass.byteRanges (s : CharClass) : List (List (Nat × Nat)) :=
  s.flatMap fun (low, high) => Text.byteRanges low high

end Relabel.Text
