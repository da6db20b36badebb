/-!
# Byte strings

A byte string is a list of bytes. Numbers in class files stand most significant byte first;
`ofUInt16`, `ofUInt32` and `ofUInt64` write them so and `toUInt16` and `toUInt32` put them
together again. Hexadecimal text has two lower case digits per byte.
-/

namespace Relabel

/-- A byte string. -/
abbrev Bytes := List UInt8

namespace Bytes

/-! ### Numbers, most significant byte first -/

/-- The two bytes of a 16-bit number. -/
def ofUInt16 (x : UInt16) : Bytes :=
  [(x >>> 8).toUInt8, x.toUInt8]

/-- The four bytes of a 32-bit number. -/
def ofUInt32 (x : UInt32) : Bytes :=
  [(x >>> 24).toUInt8, (x >>> 16).toUInt8, (x >>> 8).toUInt8, x.toUInt8]

/-- The eight bytes of a 64-bit number. -/
def ofUInt64 (x : UInt64) : Bytes :=
  ofUInt32 (x >>> 32).toUInt32 ++ ofUInt32 x.toUInt32

/-- The 16-bit number with these two bytes. -/
def toUInt16 (a b : UInt8) : UInt16 :=
  a.toUInt16 <<< 8 ||| b.toUInt16

/-- The 32-bit number with these four bytes. -/
def toUInt32 (a b c d : UInt8) : UInt32 :=
  a.toUInt32 <<< 24 ||| b.toUInt32 <<< 16 ||| c.toUInt32 <<< 8 ||| d.toUInt32

/-- The 64-bit number with these two halves. -/
def toUInt64 (high low : UInt32) : UInt64 :=
  high.toUInt64 <<< 32 ||| low.toUInt64

/-- The lowest `n` bytes of a number, least significant byte first. -/
def littleEndian : Nat → Nat → Bytes
  | 0, _ => []
  | n + 1, x => x.toUInt8 :: littleEndian n (x / 256)

@[simp]
theorem length_ofUInt16 (x : UInt16) : (ofUInt16 x).length = 2 := rfl

@[simp]
theorem length_ofUInt32 (x : UInt32) : (ofUInt32 x).length = 4 := rfl

@[simp]
theorem length_ofUInt64 (x : UInt64) : (ofUInt64 x).length = 8 := rfl

@[simp]
theorem length_littleEndian (n x : Nat) : (littleEndian n x).length = n := by
  induction n generalizing x with
  | zero => rfl
  | succ n ih => simp [littleEndian, ih]

/-- The value of a 16-bit number in terms of its bytes. -/
theorem toNat_toUInt16 (a b : UInt8) : (toUInt16 a b).toNat = 256 * a.toNat + b.toNat := by
  have ha := a.toNat_lt
  have hb : b.toNat < 2 ^ 8 := b.toNat_lt
  have hs : (a.toUInt16 <<< 8).toNat = a.toNat <<< 8 := by
    simp [UInt16.toNat_shiftLeft, Nat.shiftLeft_eq]
    omega
  rw [toUInt16, UInt16.toNat_or, hs, UInt8.toNat_toUInt16, ← Nat.shiftLeft_add_eq_or_of_lt hb,
    Nat.shiftLeft_eq]
  omega

/-- The value of a 32-bit number in terms of its bytes. -/
theorem toNat_toUInt32 (a b c d : UInt8) :
    (toUInt32 a b c d).toNat =
      16777216 * a.toNat + 65536 * b.toNat + 256 * c.toNat + d.toNat := by
  have ha := a.toNat_lt
  have hb := b.toNat_lt
  have hc := c.toNat_lt
  have hd : d.toNat < 2 ^ 8 := d.toNat_lt
  have shift24 : (a.toUInt32 <<< 24).toNat = a.toNat <<< 24 := by
    simp [UInt32.toNat_shiftLeft, Nat.shiftLeft_eq]
    omega
  have shift16 : (b.toUInt32 <<< 16).toNat = b.toNat <<< 16 := by
    simp [UInt32.toNat_shiftLeft, Nat.shiftLeft_eq]
    omega
  have shift8 : (c.toUInt32 <<< 8).toNat = c.toNat <<< 8 := by
    simp [UInt32.toNat_shiftLeft, Nat.shiftLeft_eq]
    omega
  -- Each byte stands below the lowest bit of the one before it, so `|||` adds.
  have low16 : c.toNat <<< 8 ||| d.toNat = c.toNat <<< 8 + d.toNat :=
    (Nat.shiftLeft_add_eq_or_of_lt hd _).symm
  have low24 : b.toNat <<< 16 ||| (c.toNat <<< 8 + d.toNat) =
      b.toNat <<< 16 + (c.toNat <<< 8 + d.toNat) :=
    (Nat.shiftLeft_add_eq_or_of_lt (by simp [Nat.shiftLeft_eq]; omega) _).symm
  have low32 : a.toNat <<< 24 ||| (b.toNat <<< 16 + (c.toNat <<< 8 + d.toNat)) =
      a.toNat <<< 24 + (b.toNat <<< 16 + (c.toNat <<< 8 + d.toNat)) :=
    (Nat.shiftLeft_add_eq_or_of_lt (by simp [Nat.shiftLeft_eq]; omega) _).symm
  simp only [toUInt32, UInt32.toNat_or, shift24, shift16, shift8, UInt8.toNat_toUInt32,
    Nat.or_assoc, low16, low24, low32]
  simp only [Nat.shiftLeft_eq]
  omega

/-- The bytes of a 16-bit number put together are the number. -/
@[simp]
theorem toUInt16_bytes (x : UInt16) : toUInt16 (x >>> 8).toUInt8 x.toUInt8 = x := by
  have h := x.toNat_lt
  apply UInt16.toNat_inj.1
  simp [toNat_toUInt16, Nat.shiftRight_eq_div_pow]
  omega

/-- The bytes of a 32-bit number put together are the number. -/
@[simp]
theorem toUInt32_bytes (x : UInt32) :
    toUInt32 (x >>> 24).toUInt8 (x >>> 16).toUInt8 (x >>> 8).toUInt8 x.toUInt8 = x := by
  have h := x.toNat_lt
  apply UInt32.toNat_inj.1
  simp [toNat_toUInt32, Nat.shiftRight_eq_div_pow]
  omega

/-- Two bytes are those of the number they make up. -/
@[simp]
theorem ofUInt16_toUInt16 (a b : UInt8) : ofUInt16 (toUInt16 a b) = [a, b] := by
  have ha := a.toNat_lt
  have hb := b.toNat_lt
  simp only [ofUInt16, List.cons.injEq, and_true]
  constructor
  · apply UInt8.toNat_inj.1
    simp [toNat_toUInt16, Nat.shiftRight_eq_div_pow]
    omega
  · apply UInt8.toNat_inj.1
    simp [toNat_toUInt16]

/-- Four bytes are those of the number they make up. -/
@[simp]
theorem ofUInt32_toUInt32 (a b c d : UInt8) : ofUInt32 (toUInt32 a b c d) = [a, b, c, d] := by
  have ha := a.toNat_lt
  have hb := b.toNat_lt
  have hc := c.toNat_lt
  have hd := d.toNat_lt
  simp only [ofUInt32, List.cons.injEq, and_true]
  refine ⟨?_, ?_, ?_, ?_⟩
  · apply UInt8.toNat_inj.1
    simp [toNat_toUInt32, Nat.shiftRight_eq_div_pow]
    omega
  · apply UInt8.toNat_inj.1
    simp [toNat_toUInt32, Nat.shiftRight_eq_div_pow]
    omega
  · apply UInt8.toNat_inj.1
    simp [toNat_toUInt32, Nat.shiftRight_eq_div_pow]
    omega
  · apply UInt8.toNat_inj.1
    simp [toNat_toUInt32]
    omega

/-! ### Hexadecimal text -/

/-- The lower case hexadecimal digit of a number below sixteen. -/
def hexDigit (n : Nat) : Char :=
  if n < 10 then Char.ofNat (48 + n) else Char.ofNat (87 + n)

/-- The value of a hexadecimal digit of either case. -/
def hexValue? (c : Char) : Option Nat :=
  let n := c.toNat
  if 48 ≤ n ∧ n ≤ 57 then some (n - 48)
  else if 97 ≤ n ∧ n ≤ 102 then some (n - 87)
  else if 65 ≤ n ∧ n ≤ 70 then some (n - 55)
  else none

/-- Two lower case digits per byte. -/
def toHex (bytes : Bytes) : String :=
  String.ofList <| bytes.flatMap fun b => [hexDigit (b.toNat / 16), hexDigit (b.toNat % 16)]

/-- Reads pairs of digits into `read`, the bytes so far in reverse. -/
def ofHexDigits? (read : Bytes) : List Char → Option Bytes
  | [] => some read.reverse
  | a :: b :: rest =>
    match hexValue? a, hexValue? b with
    | some high, some low => ofHexDigits? ((16 * high + low).toUInt8 :: read) rest
    | _, _ => none
  | [_] => none

/-- The bytes a hexadecimal text stands for. -/
def ofHex? (text : String) : Option Bytes :=
  ofHexDigits? [] text.toList

/-- A number in hexadecimal with at least `width` digits. -/
def hexNumber (width n : Nat) : String :=
  let digits := Nat.toDigits 16 n
  String.ofList (List.replicate (width - digits.length) '0' ++ digits)

/-- The UTF-8 form of a text. -/
def ofText (text : String) : Bytes :=
  text.toUTF8.data.toList

end Bytes

end Relabel
