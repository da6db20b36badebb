import Relabel.Bytes
import Relabel.Text.Utf8

/-!
# Modified UTF-8

Class files store texts as UTF-16 units of one to three bytes each. The unit zero takes two bytes,
so no byte is zero, and a character beyond U+FFFF takes two units of three bytes. Surrogates that
are not paired can be stored but are no characters: a text that holds some reads with U+FFFD in
their place and is not exact. A text of ASCII characters other than zero is stored as it is, and is
read and written without a look at units.
-/

namespace Relabel.ModifiedUtf8

/-! ### Units and bytes -/

/-- Whether the unit starts a pair. -/
def isHigh (u : UInt16) : Bool := 0xd800 ≤ u && u ≤ 0xdbff

/-- Whether the unit ends a pair. -/
def isLow (u : UInt16) : Bool := 0xdc00 ≤ u && u ≤ 0xdfff

/-- The unit in two bytes, of which the first starts with the bits 110. -/
def unit2 (a b : UInt8) : UInt16 :=
  (a.toUInt16 &&& 0x1f) <<< 6 ||| (b.toUInt16 &&& 0x3f)

/-- The unit in three bytes, of which the first starts with the bits 1110. -/
def unit3 (a b c : UInt8) : UInt16 :=
  (a.toUInt16 &&& 0x0f) <<< 12 ||| (b.toUInt16 &&& 0x3f) <<< 6 ||| (c.toUInt16 &&& 0x3f)

/-- The bytes of a unit. -/
def unitBytes (u : UInt16) : Bytes :=
  if 0x0001 ≤ u && u ≤ 0x007f then [u.toUInt8]
  else if u ≤ 0x07ff then
    [(0xc0 : UInt8) ||| (u >>> 6).toUInt8, (0x80 : UInt8) ||| (u &&& 0x3f).toUInt8]
  else [(0xe0 : UInt8) ||| (u >>> 12).toUInt8, (0x80 : UInt8) ||| ((u >>> 6) &&& 0x3f).toUInt8,
    (0x80 : UInt8) ||| (u &&& 0x3f).toUInt8]

/-- Reads units after those already read, in reverse. Only first bytes are checked. -/
def unitsFrom (read : List UInt16) : Bytes → Option (List UInt16)
  | [] => some read.reverse
  | a :: rest =>
    if a &&& 0x80 = 0 then unitsFrom (a.toUInt16 :: read) rest
    else if a &&& 0xe0 = 0xc0 then
      match rest with
      | b :: rest => unitsFrom (unit2 a b :: read) rest
      | [] => none
    else if a &&& 0xf0 = 0xe0 then
      match rest with
      | b :: c :: rest => unitsFrom (unit3 a b c :: read) rest
      | _ => none
    else none

/-- The units of a byte string. -/
def units? (raw : Bytes) : Option (List UInt16) :=
  unitsFrom [] raw

/-! ### Units and characters -/

/-- The character of a pair. -/
def pairChar (high low : UInt16) : Char :=
  Char.ofNat (0x10000 + (high.toNat - 0xd800) * 0x400 + (low.toNat - 0xdc00))

/-- The units of a character. -/
def charUnits (c : Char) : List UInt16 :=
  let n := c.toNat
  if n < 0x10000 then [n.toUInt16]
  else [(0xd800 + (n - 0x10000) / 0x400).toUInt16, (0xdc00 + (n - 0x10000) % 0x400).toUInt16]

/-- Reads characters after those already read, in reverse, and a first surrogate that waits for its
partner; `none` for a surrogate without one. -/
def charsFrom (read : List (Option Char)) : Option UInt16 → List UInt16 → List (Option Char)
  | none, [] => read.reverse
  | some _, [] => (none :: read).reverse
  | none, u :: rest =>
    if isHigh u then charsFrom read (some u) rest
    else if isLow u then charsFrom (none :: read) none rest
    else charsFrom (some (Char.ofNat u.toNat) :: read) none rest
  | some high, u :: rest =>
    if isLow u then charsFrom (some (pairChar high u) :: read) none rest
    else if isHigh u then charsFrom (none :: read) (some u) rest
    else charsFrom (some (Char.ofNat u.toNat) :: none :: read) none rest

/-- The characters of units; `none` for a surrogate without its partner. -/
def chars (units : List UInt16) : List (Option Char) :=
  charsFrom [] none units

/-! ### Texts -/

/-- A text read from modified UTF-8. -/
structure Decoded where
  text : String
  /-- Whether every unit was part of a character. -/
  exact : Bool
  deriving DecidableEq, Repr

/-- Reads a text unit by unit. -/
def decodeUnits? (raw : Bytes) : Option Decoded :=
  (units? raw).map fun units =>
    let read := chars units
    { text := String.ofList (read.map fun c => c.getD Utf8.replacement)
      exact := read.all Option.isSome }

/-- The bytes of a text unit by unit. -/
def encodeUnits (text : String) : Bytes :=
  text.toList.flatMap fun c => (charUnits c).flatMap unitBytes

/-- Whether a code is that of a unit which takes one byte. -/
def isPlain (n : Nat) : Bool := 0 < n && n < 128

/-- Reads a text. Where all bytes are plain, each is a character. -/
def decode? (raw : Bytes) : Option Decoded :=
  if raw.all fun b => isPlain b.toNat then
    some { text := String.ofList (raw.map fun b => Char.ofNat b.toNat), exact := true }
  else decodeUnits? raw

/-- The bytes of a text. Where all characters are plain, each is a byte. -/
def encode (text : String) : Bytes :=
  if text.toList.all fun c => isPlain c.toNat then text.toList.map fun c => c.toNat.toUInt8
  else encodeUnits text

end Relabel.ModifiedUtf8
