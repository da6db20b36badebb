import Relabel.Bytes

/-!
# The SHA-256 digest

The message is padded to whole blocks of 64 bytes, each block is expanded to a schedule of 64
words, and 64 rounds over the schedule update a chaining value of eight words.
-/

namespace Relabel.Sha256

/-- The constants of the 64 rounds. -/
def roundConstants : List UInt32 :=
  [0x428a2f98, 0x71374491, 0xb5c0fbcf, 0xe9b5dba5, 0x3956c25b, 0x59f111f1, 0x923f82a4, 0xab1c5ed5,
   0xd807aa98, 0x12835b01, 0x243185be, 0x550c7dc3, 0x72be5d74, 0x80deb1fe, 0x9bdc06a7, 0xc19bf174,
   0xe49b69c1, 0xefbe4786, 0x0fc19dc6, 0x240ca1cc, 0x2de92c6f, 0x4a7484aa, 0x5cb0a9dc, 0x76f988da,
   0x983e5152, 0xa831c66d, 0xb00327c8, 0xbf597fc7, 0xc6e00bf3, 0xd5a79147, 0x06ca6351, 0x14292967,
   0x27b70a85, 0x2e1b2138, 0x4d2c6dfc, 0x53380d13, 0x650a7354, 0x766a0abb, 0x81c2c92e, 0x92722c85,
   0xa2bfe8a1, 0xa81a664b, 0xc24b8b70, 0xc76c51a3, 0xd192e819, 0xd6990624, 0xf40e3585, 0x106aa070,
   0x19a4c116, 0x1e376c08, 0x2748774c, 0x34b0bcb5, 0x391c0cb3, 0x4ed8aa4a, 0x5b9cca4f, 0x682e6ff3,
   0x748f82ee, 0x78a5636f, 0x84c87814, 0x8cc70208, 0x90befffa, 0xa4506ceb, 0xbef9a3f7, 0xc67178f2]

/-- The chaining value: eight words. -/
structure State where
  a : UInt32 := 0x6a09e667
  b : UInt32 := 0xbb67ae85
  c : UInt32 := 0x3c6ef372
  d : UInt32 := 0xa54ff53a
  e : UInt32 := 0x510e527f
  f : UInt32 := 0x9b05688c
  g : UInt32 := 0x1f83d9ab
  h : UInt32 := 0x5be0cd19

/-- Rotation to the right. -/
def rotate (x : UInt32) (n : UInt32) : UInt32 :=
  x >>> n ||| x <<< (32 - n)

/-- One round with a schedule word and a round constant. -/
def round (s : State) (word constant : UInt32) : State :=
  let sum1 := rotate s.e 6 ^^^ rotate s.e 11 ^^^ rotate s.e 25
  let choice := (s.e &&& s.f) ^^^ (~~~s.e &&& s.g)
  let t1 := s.h + sum1 + choice + constant + word
  let sum0 := rotate s.a 2 ^^^ rotate s.a 13 ^^^ rotate s.a 22
  let majority := (s.a &&& s.b) ^^^ (s.a &&& s.c) ^^^ (s.b &&& s.c)
  { a := t1 + (sum0 + majority), b := s.a, c := s.b, d := s.c,
    e := s.d + t1, f := s.e, g := s.f, h := s.g }

/-- Runs the rounds left, given the next sixteen schedule words. -/
def rounds : List UInt32 → List UInt32 → State → State
  | constant :: constants, word :: window, s =>
    let at1 := window.getD 0 0
    let at14 := window.getD 13 0
    let sigma0 := rotate at1 7 ^^^ rotate at1 18 ^^^ at1 >>> 3
    let sigma1 := rotate at14 17 ^^^ rotate at14 19 ^^^ at14 >>> 10
    let next := word + sigma0 + window.getD 8 0 + sigma1
    rounds constants (window ++ [next]) (round s word constant)
  | _, _, s => s

/-- The big-endian words of a block, at most `n` of them. -/
def wordsOf : Nat → Bytes → List UInt32
  | n + 1, a :: b :: c :: d :: rest => Bytes.toUInt32 a b c d :: wordsOf n rest
  | _, _ => []

/-- Takes one block into the chaining value. -/
def compress (s : State) (block : Bytes) : State :=
  let t := rounds roundConstants (wordsOf 16 block) s
  { a := s.a + t.a, b := s.b + t.b, c := s.c + t.c, d := s.d + t.d,
    e := s.e + t.e, f := s.f + t.f, g := s.g + t.g, h := s.h + t.h }

/-- The message followed by a one bit, zeros up to a whole block, and its length in bits. -/
def pad (message : Bytes) : Bytes :=
  let zeros := (119 - message.length % 64) % 64
  message ++ (0x80 :: List.replicate zeros 0) ++ Bytes.ofUInt64 (8 * message.length).toUInt64

/-- Takes `n` blocks into the chaining value. -/
def absorb : Nat → Bytes → State → State
  | 0, _, s => s
  | n + 1, rest, s => absorb n (rest.drop 64) (compress s rest)

/-- The digest of a message, 32 bytes. -/
def digest (message : Bytes) : Bytes :=
  let padded := pad message
  let s := absorb (padded.length / 64) padded {}
  [s.a, s.b, s.c, s.d, s.e, s.f, s.g, s.h].flatMap Bytes.ofUInt32

end Relabel.Sha256
