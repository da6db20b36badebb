import Mathlib.Algebra.Group.Nat.Defs
import Mathlib.Data.List.Basic
import Relabel.ClassFile.ModifiedUtf8

/-!
# Modified UTF-8, read back

The bytes of a unit read as the unit and the units of a character as the character, each in front of
whatever follows. So a text that is written reads back as it was, and exactly. Looking for plain
texts first changes neither what is written nor what is read.

## Main results

- `unitsFrom_unitBytes`, `charsFrom_charUnits`: one unit and one character.
- `encode_eq_encodeUnits`, `decode?_eq_decodeUnits?`: plain texts are no exception.
- `decode?_encode`: every text reads back.
-/

namespace Relabel.ModifiedUtf8

/-! ### Bytes of a unit -/

/-- A first byte of one alone has its high bit clear. -/
theorem and_0x80 (a : UInt8) : a &&& 0x80 = 0 ↔ a.toNat < 0x80 := by
  obtain ⟨a⟩ := a
  revert a
  decide

/-- A first byte of two has the high bits `110`. -/
theorem and_0xe0 (a : UInt8) : a &&& 0xe0 = 0xc0 ↔ a.toNat / 32 = 6 := by
  obtain ⟨a⟩ := a
  revert a
  decide

/-- A first byte of three has the high bits `1110`. -/
theorem and_0xf0 (a : UInt8) : a &&& 0xf0 = 0xe0 ↔ a.toNat / 16 = 14 := by
  obtain ⟨a⟩ := a
  revert a
  decide

/-- A number of `k` bits below a leading part that ends in `k` zeros. -/
private theorem toNat_lead_or {lead x : UInt8} {m k : Nat} (hlead : lead.toNat = m * 2 ^ k)
    (hx : x.toNat < 2 ^ k) : (lead ||| x).toNat = lead.toNat + x.toNat := by
  rw [UInt8.toNat_or, hlead, ← Nat.shiftLeft_eq, Nat.shiftLeft_add_eq_or_of_lt hx]

/-- The first byte of two holds the bits above the lowest six. -/
theorem toNat_first2 {u : UInt16} (h : u.toNat < 0x800) :
    ((0xc0 : UInt8) ||| (u >>> 6).toUInt8).toNat = 0xc0 + u.toNat / 64 := by
  have hx : (u >>> 6).toUInt8.toNat = u.toNat / 64 := by
    simp [Nat.shiftRight_eq_div_pow]
    omega
  have hlead : (0xc0 : UInt8).toNat = 6 * 2 ^ 5 := rfl
  rw [toNat_lead_or hlead (by omega), hx]
  rfl

/-- The first byte of three holds the four highest bits. -/
theorem toNat_first3 (u : UInt16) :
    ((0xe0 : UInt8) ||| (u >>> 12).toUInt8).toNat = 0xe0 + u.toNat / 4096 := by
  have hu := u.toNat_lt
  have hx : (u >>> 12).toUInt8.toNat = u.toNat / 4096 := by
    simp [Nat.shiftRight_eq_div_pow]
    omega
  have hlead : (0xe0 : UInt8).toNat = 14 * 2 ^ 4 := rfl
  rw [toNat_lead_or hlead (by omega), hx]
  rfl

/-- A byte after the first holds the six lowest bits. -/
theorem toNat_next (u : UInt16) :
    ((0x80 : UInt8) ||| (u &&& 0x3f).toUInt8).toNat = 0x80 + u.toNat % 64 := by
  have hand : u.toNat &&& (0x3f : UInt16).toNat = u.toNat % 64 :=
    Nat.and_two_pow_sub_one_eq_mod _ 6
  have hx : (u &&& 0x3f).toUInt8.toNat = u.toNat % 64 := by
    rw [UInt16.toNat_toUInt8, UInt16.toNat_and, hand]
    omega
  have hlead : (0x80 : UInt8).toNat = 2 * 2 ^ 6 := rfl
  rw [toNat_lead_or hlead (by omega), hx]
  rfl

/-- Bits put above a number of `k` bits, where 16 bits are enough for both. -/
private theorem shiftLeft_or {x y k : Nat} (hx : x * 2 ^ k < 65536) (hy : y < 2 ^ k) :
    (x <<< k) % 65536 ||| y = x * 2 ^ k + y := by
  rw [← Nat.shiftLeft_eq] at hx ⊢
  rw [Nat.mod_eq_of_lt hx, Nat.shiftLeft_add_eq_or_of_lt hy]

/-- The unit of two bytes, in numbers. -/
theorem toNat_unit2 (a b : UInt8) : (unit2 a b).toNat = a.toNat % 32 * 64 + b.toNat % 64 := by
  have ha : a.toNat &&& 31 = a.toNat % 32 := Nat.and_two_pow_sub_one_eq_mod _ 5
  have hb : b.toNat &&& 63 = b.toNat % 64 := Nat.and_two_pow_sub_one_eq_mod _ 6
  simp only [unit2, UInt16.toNat_or, UInt16.toNat_shiftLeft, UInt16.toNat_and, UInt8.toNat_toUInt16,
    UInt16.reduceToNat, ha, hb]
  exact @shiftLeft_or (a.toNat % 32) (b.toNat % 64) 6 (by omega) (by omega)

/-- The unit of three bytes, in numbers. -/
theorem toNat_unit3 (a b c : UInt8) :
    (unit3 a b c).toNat = a.toNat % 16 * 4096 + b.toNat % 64 * 64 + c.toNat % 64 := by
  have ha : a.toNat &&& 15 = a.toNat % 16 := Nat.and_two_pow_sub_one_eq_mod _ 4
  have hb : b.toNat &&& 63 = b.toNat % 64 := Nat.and_two_pow_sub_one_eq_mod _ 6
  have hc : c.toNat &&& 63 = c.toNat % 64 := Nat.and_two_pow_sub_one_eq_mod _ 6
  have hlow := @shiftLeft_or (b.toNat % 64) (c.toNat % 64) 6 (by omega) (by omega)
  have hall := @shiftLeft_or (a.toNat % 16) (b.toNat % 64 * 2 ^ 6 + c.toNat % 64) 12 (by omega)
    (by omega)
  simp only [unit3, UInt16.toNat_or, UInt16.toNat_shiftLeft, UInt16.toNat_and, UInt8.toNat_toUInt16,
    UInt16.reduceToNat, ha, hb, hc, Nat.or_assoc]
  calc _ = a.toNat % 16 * 2 ^ 12 + (b.toNat % 64 * 2 ^ 6 + c.toNat % 64) := by
        rw [← hall, ← hlow]
    _ = _ := by omega

/-- A byte alone is read as the unit of its value. -/
theorem unitsFrom_one {a : UInt8} (h : a.toNat < 0x80) (read : List UInt16) (rest : Bytes) :
    unitsFrom read (a :: rest) = unitsFrom (a.toUInt16 :: read) rest := by
  rw [unitsFrom.eq_def]
  exact if_pos ((and_0x80 a).2 h)

/-- Two bytes are read as their unit. -/
theorem unitsFrom_two {a : UInt8} (h : a.toNat / 32 = 6) (b : UInt8) (read : List UInt16)
    (rest : Bytes) : unitsFrom read (a :: b :: rest) = unitsFrom (unit2 a b :: read) rest := by
  have hone : ¬ a &&& 0x80 = 0 := fun hone => absurd ((and_0x80 a).1 hone) (by omega)
  rw [unitsFrom, if_neg hone, if_pos ((and_0xe0 a).2 h)]

/-- Three bytes are read as their unit. -/
theorem unitsFrom_three {a : UInt8} (h : a.toNat / 16 = 14) (b c : UInt8) (read : List UInt16)
    (rest : Bytes) :
    unitsFrom read (a :: b :: c :: rest) = unitsFrom (unit3 a b c :: read) rest := by
  have hone : ¬ a &&& 0x80 = 0 := fun hone => absurd ((and_0x80 a).1 hone) (by omega)
  have htwo : ¬ a &&& 0xe0 = 0xc0 := fun htwo => absurd ((and_0xe0 a).1 htwo) (by omega)
  rw [unitsFrom, if_neg hone, if_neg htwo, if_pos ((and_0xf0 a).2 h)]

/-- The bytes of a unit read as the unit. -/
theorem unitsFrom_unitBytes (u : UInt16) (read : List UInt16) (rest : Bytes) :
    unitsFrom read (unitBytes u ++ rest) = unitsFrom (u :: read) rest := by
  have hu := u.toNat_lt
  unfold unitBytes
  split
  · next hone =>
    simp only [Bool.and_eq_true, decide_eq_true_eq, UInt16.le_iff_toNat_le,
      UInt16.reduceToNat] at hone
    have ha : u.toUInt8.toNat = u.toNat := by
      rw [UInt16.toNat_toUInt8]
      omega
    have hback : u.toUInt8.toUInt16 = u := by
      rw [← UInt16.toNat_inj, UInt8.toNat_toUInt16, ha]
    rw [List.singleton_append, unitsFrom_one (by omega), hback]
  -- Two bytes up to 7ff, three beyond.
  · split
    · next htwo =>
      have htwo : u.toNat < 0x800 := Nat.lt_succ_of_le (UInt16.le_iff_toNat_le.1 htwo)
      have ha := toNat_first2 htwo
      rw [List.cons_append, List.singleton_append, unitsFrom_two (by omega)]
      congr 2
      rw [← UInt16.toNat_inj, toNat_unit2, ha, toNat_next]
      omega
    · have ha := toNat_first3 u
      have hshift : (u >>> 6).toNat = u.toNat / 64 := by
        simp [Nat.shiftRight_eq_div_pow]
      rw [List.cons_append, List.cons_append, List.singleton_append, unitsFrom_three (by omega)]
      congr 2
      rw [← UInt16.toNat_inj, toNat_unit3, ha, toNat_next, toNat_next, hshift]
      omega

/-! ### Units of a character -/

theorem isHigh_iff {u : UInt16} : isHigh u ↔ 0xd800 ≤ u.toNat ∧ u.toNat ≤ 0xdbff := by
  simp [isHigh, UInt16.le_iff_toNat_le]

theorem isLow_iff {u : UInt16} : isLow u ↔ 0xdc00 ≤ u.toNat ∧ u.toNat ≤ 0xdfff := by
  simp [isLow, UInt16.le_iff_toNat_le]

theorem toNat_toUInt16 {n : Nat} (h : n < 65536) : n.toUInt16.toNat = n :=
  UInt16.toNat_ofNat_of_lt' h

/-- The units of a character read as the character. -/
theorem charsFrom_charUnits (c : Char) (read : List (Option Char)) (rest : List UInt16) :
    charsFrom read none (charUnits c ++ rest) = charsFrom (some c :: read) none rest := by
  have hvalid : c.toNat < 0xd800 ∨ 0xdfff < c.toNat ∧ c.toNat < 0x110000 := c.valid
  unfold charUnits
  dsimp only
  -- One unit below 10000, which is no surrogate, and a pair of surrogates beyond.
  split
  · next hone =>
    have hu := toNat_toUInt16 hone
    have hhigh : ¬ isHigh c.toNat.toUInt16 := by
      rw [isHigh_iff, hu]
      omega
    have hlow : ¬ isLow c.toNat.toUInt16 := by
      rw [isLow_iff, hu]
      omega
    rw [List.singleton_append, charsFrom, if_neg hhigh, if_neg hlow, hu, Char.ofNat_toNat]
  · next htwo =>
    have hu := @toNat_toUInt16 (0xd800 + (c.toNat - 0x10000) / 0x400) (by omega)
    have hu' := @toNat_toUInt16 (0xdc00 + (c.toNat - 0x10000) % 0x400) (by omega)
    generalize (0xd800 + (c.toNat - 0x10000) / 0x400).toUInt16 = high at hu ⊢
    generalize (0xdc00 + (c.toNat - 0x10000) % 0x400).toUInt16 = low at hu' ⊢
    have hhigh : isHigh high := isHigh_iff.2 (by omega)
    have hlow : isLow low := isLow_iff.2 (by omega)
    have hback : pairChar high low = c := by
      refine Eq.trans (congrArg Char.ofNat ?_) (Char.ofNat_toNat c)
      omega
    rw [List.cons_append, List.singleton_append, charsFrom, if_pos hhigh, charsFrom, if_pos hlow,
      hback]

/-! ### Texts -/

/-- The bytes of units are read back as the units. -/
theorem unitsFrom_flatMap_unitBytes (units read : List UInt16) :
    unitsFrom read (units.flatMap unitBytes) = some (read.reverse ++ units) := by
  induction units generalizing read with
  | nil => simp [unitsFrom]
  | cons u rest ih =>
    rw [List.flatMap_cons, unitsFrom_unitBytes, ih]
    simp

/-- The units of characters are read back as the characters. -/
theorem charsFrom_flatMap_charUnits (cs : List Char) (read : List (Option Char)) :
    charsFrom read none (cs.flatMap charUnits) = read.reverse ++ cs.map some := by
  induction cs generalizing read with
  | nil => simp [charsFrom]
  | cons c rest ih =>
    rw [List.flatMap_cons, charsFrom_charUnits, ih]
    simp

/-- A text written unit by unit reads back unit by unit. -/
theorem decodeUnits?_encodeUnits (text : String) :
    decodeUnits? (encodeUnits text) = some { text, exact := true } := by
  have hunits : units? (encodeUnits text) = some (text.toList.flatMap charUnits) := by
    rw [encodeUnits, ← List.flatMap_assoc, units?, unitsFrom_flatMap_unitBytes]
    rfl
  have hchars : chars (text.toList.flatMap charUnits) = text.toList.map some :=
    charsFrom_flatMap_charUnits _ _
  simp only [decodeUnits?, hunits, Option.map_some, hchars]
  simp [List.map_map, Function.comp_def]

/-! ### Plain texts -/

theorem isPlain_iff {n : Nat} : isPlain n ↔ 0 < n ∧ n < 128 := by
  simp [isPlain]

/-- A plain character is written as one byte, also unit by unit. -/
theorem flatMap_unitBytes_of_isPlain {c : Char} (h : isPlain c.toNat) :
    (charUnits c).flatMap unitBytes = [c.toNat.toUInt8] := by
  obtain ⟨hpos, hlt⟩ := isPlain_iff.1 h
  have hu := @toNat_toUInt16 c.toNat (by omega)
  have hunits : charUnits c = [c.toNat.toUInt16] := if_pos (by omega)
  rw [hunits, List.flatMap_singleton, unitBytes, if_pos, List.singleton_inj, ← UInt8.toNat_inj,
    UInt16.toNat_toUInt8, hu]
  · rfl
  · simp only [Bool.and_eq_true, decide_eq_true_eq, UInt16.le_iff_toNat_le, hu]
    exact ⟨hpos, Nat.le_of_lt_succ hlt⟩

/-- Where all characters are plain, writing unit by unit makes no difference. -/
theorem encode_eq_encodeUnits (text : String) : encode text = encodeUnits text := by
  unfold encode
  split
  · next h =>
    rw [List.all_eq_true] at h
    rw [encodeUnits, List.map_eq_flatMap]
    exact List.flatMap_congr fun c hc => (flatMap_unitBytes_of_isPlain (h c hc)).symm
  · rfl

/-- Where all bytes are plain, reading unit by unit makes no difference. -/
theorem decode?_eq_decodeUnits? (raw : Bytes) : decode? raw = decodeUnits? raw := by
  unfold decode?
  split
  · next h =>
    rw [List.all_eq_true] at h
    -- Plain bytes are what their own characters are written as.
    have hraw : encodeUnits (String.ofList (raw.map fun b => Char.ofNat b.toNat)) = raw := by
      rw [encodeUnits, String.toList_ofList, List.flatMap_map]
      conv_rhs => rw [← List.flatMap_singleton' raw]
      refine List.flatMap_congr fun b hb => ?_
      have hb := h b hb
      have hvalid : b.toNat.isValidChar := .inl (by have := isPlain_iff.1 hb; omega)
      have hchar : (Char.ofNat b.toNat).toNat = b.toNat := by
        rw [Char.ofNat, dif_pos hvalid]
        rfl
      rw [flatMap_unitBytes_of_isPlain (by rwa [hchar]), hchar]
      simp
    conv_rhs => rw [← hraw]
    rw [decodeUnits?_encodeUnits]
  · rfl

/-- A text reads back as it was written. -/
theorem decode?_encode (text : String) :
    decode? (encode text) = some { text, exact := true } := by
  rw [encode_eq_encodeUnits, decode?_eq_decodeUnits?, decodeUnits?_encodeUnits]

end Relabel.ModifiedUtf8
