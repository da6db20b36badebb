import Relabel.Bytes

/-!
# Reading UTF-8

`decode?` refuses a byte string that is not UTF-8. `decodeLossy` reads any byte string: each
longest piece that starts a character and cannot be completed reads as U+FFFD.
-/

namespace Relabel.Utf8

/-- The text of a byte string that is valid UTF-8. -/
def decode? (bytes : Bytes) : Option String :=
  String.fromUTF8? ⟨bytes.toArray⟩

/-- How a first byte goes on: the number of bytes after it and the range of the next one. -/
def continuation? (first : UInt8) : Option (Nat × Nat × Nat) :=
  let n := first.toNat
  if n < 0x80 then some (0, 0, 0)
  else if 0xc2 ≤ n ∧ n ≤ 0xdf then some (1, 0x80, 0xbf)
  else if n = 0xe0 then some (2, 0xa0, 0xbf)
  else if n = 0xed then some (2, 0x80, 0x9f)
  else if 0xe1 ≤ n ∧ n ≤ 0xef then some (2, 0x80, 0xbf)
  else if n = 0xf0 then some (3, 0x90, 0xbf)
  else if 0xf1 ≤ n ∧ n ≤ 0xf3 then some (3, 0x80, 0xbf)
  else if n = 0xf4 then some (3, 0x80, 0x8f)
  else none

/-- The bits of the code point that a first byte with `n` bytes after it holds. -/
def firstBits (n : Nat) (first : UInt8) : Nat :=
  match n with
  | 0 => first.toNat
  | 1 => first.toNat % 32
  | 2 => first.toNat % 16
  | _ => first.toNat % 8

/-- A character under way: the bytes still due, the range of the next one, the bits so far. -/
structure Pending where
  due : Nat
  low : Nat
  high : Nat
  bits : Nat

/-- The characters read so far in reverse, and the one under way. -/
structure Progress where
  read : List Char := []
  current : Option Pending := none

/-- Stands for what cannot be read. -/
def replacement : Char := Char.ofNat 0xfffd

/-- Takes a byte that starts a character, or one that starts none. -/
def Progress.start (read : List Char) (b : UInt8) : Progress :=
  match continuation? b with
  | none => { read := replacement :: read }
  | some (0, _, _) => { read := Char.ofNat b.toNat :: read }
  | some (due, low, high) => { read, current := some { due, low, high, bits := firstBits due b } }

/-- Takes one more byte. -/
def Progress.next (p : Progress) (b : UInt8) : Progress :=
  match p.current with
  | none => .start p.read b
  | some c =>
    if c.low ≤ b.toNat ∧ b.toNat ≤ c.high then
      let bits := 64 * c.bits + b.toNat % 64
      if c.due ≤ 1 then { read := Char.ofNat bits :: p.read }
      else { p with current := some { due := c.due - 1, low := 0x80, high := 0xbf, bits } }
    else .start (replacement :: p.read) b

/-- The characters read, with a replacement for a character cut off at the end. -/
def Progress.finish (p : Progress) : List Char :=
  match p.current with
  | none => p.read.reverse
  | some _ => (replacement :: p.read).reverse

/-- The text of any byte string; what is not UTF-8 reads as U+FFFD. -/
def decodeLossy (bytes : Bytes) : String :=
  String.ofList (bytes.foldl Progress.next {}).finish

end Relabel.Utf8
