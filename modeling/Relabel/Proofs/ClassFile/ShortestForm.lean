import Relabel.Proofs.ClassFile.ModifiedUtf8

/-!
# Texts in shortest form

Reading looks at the first byte of each unit and at the lowest bits of the others, so a unit can be
stored in more ways than one. Writing takes the shortest: `Shortest` lists the bytes it comes up
with. A text that was read exactly is written as it was stored iff it was stored in this form.

## Main results

- `Shortest.encode`: what is written is in shortest form.
- `Shortest.exists_units`: bytes in shortest form are those of some units.
- `flatMap_charUnits_of_chars`: characters have the units they were read from.
- `encode_eq_iff_shortest`: a text is written as it was stored iff that was in shortest form.
-/

namespace Relabel.ModifiedUtf8

/-- A byte behind the first of its unit. -/
def Next (b : UInt8) : Prop :=
  0x80 ≤ b.toNat ∧ b.toNat < 0xc0

/-- Each unit takes as few bytes as hold it; zero takes two. -/
inductive Shortest : Bytes → Prop where
  | nil : Shortest []
  | one {a : UInt8} {rest : Bytes} :
    0 < a.toNat → a.toNat < 0x80 → Shortest rest → Shortest (a :: rest)
  | zero {rest : Bytes} : Shortest rest → Shortest (0xc0 :: 0x80 :: rest)
  | two {a b : UInt8} {rest : Bytes} :
    0xc2 ≤ a.toNat → a.toNat < 0xe0 → Next b → Shortest rest → Shortest (a :: b :: rest)
  /-- Behind `0xe0` the second byte holds the highest bit. -/
  | three {a b c : UInt8} {rest : Bytes} :
    0xe0 ≤ a.toNat → a.toNat < 0xf0 → (a.toNat = 0xe0 → 0xa0 ≤ b.toNat) → Next b → Next c →
      Shortest rest → Shortest (a :: b :: c :: rest)

/-! ### Units -/

/-- The bytes of a unit are in shortest form. -/
theorem Shortest.unitBytes_append {rest : Bytes} (h : Shortest rest) (u : UInt16) :
    Shortest (unitBytes u ++ rest) := by
  have hu := u.toNat_lt
  have hnext : Next ((0x80 : UInt8) ||| (u &&& 0x3f).toUInt8) := by
    rw [Next, toNat_next]
    omega
  unfold unitBytes
  -- One byte, two bytes with the zero among them, and three bytes.
  split
  · next hone =>
    simp only [Bool.and_eq_true, decide_eq_true_eq, UInt16.le_iff_toNat_le,
      UInt16.reduceToNat] at hone
    have ha : u.toUInt8.toNat = u.toNat := by
      rw [UInt16.toNat_toUInt8]
      omega
    exact .one (by omega) (by omega) h
  · next hone =>
    simp only [Bool.and_eq_true, decide_eq_true_eq, UInt16.le_iff_toNat_le,
      UInt16.reduceToNat] at hone
    split
    · next htwo =>
      have htwo : u.toNat < 0x800 := Nat.lt_succ_of_le (UInt16.le_iff_toNat_le.1 htwo)
      have ha := toNat_first2 htwo
      rcases Nat.eq_zero_or_pos u.toNat with hzero | hpos
      · obtain rfl := UInt16.toNat_inj.1 (hzero.trans UInt16.toNat_zero.symm)
        exact .zero h
      · exact .two (by omega) (by omega) hnext h
    · next htwo =>
      have htwo : 0x800 ≤ u.toNat :=
        Nat.succ_le_of_lt (Nat.lt_of_not_le fun hle => htwo (UInt16.le_iff_toNat_le.2 hle))
      have ha := toNat_first3 u
      have hb := toNat_next (u >>> 6)
      have hshift : (u >>> 6).toNat = u.toNat / 64 := by
        simp [Nat.shiftRight_eq_div_pow]
      rw [hshift] at hb
      refine .three (by omega) (by omega) (fun hlead => by omega) ?_ hnext h
      rw [Next]
      omega

/-- A unit of two bytes in shortest form is written as these. -/
theorem unitBytes_unit2 {a b : UInt8} (ha : 0xc2 ≤ a.toNat) (ha' : a.toNat < 0xe0) (hb : Next b) :
    unitBytes (unit2 a b) = [a, b] := by
  obtain ⟨hb, hb'⟩ := hb
  have hu := toNat_unit2 a b
  have hone : ¬ (0x0001 ≤ unit2 a b && unit2 a b ≤ 0x007f) := by
    simp only [Bool.and_eq_true, decide_eq_true_eq, UInt16.le_iff_toNat_le, UInt16.reduceToNat]
    omega
  have htwo : unit2 a b ≤ 0x07ff := by
    simp only [UInt16.le_iff_toNat_le, UInt16.reduceToNat]
    omega
  rw [unitBytes, if_neg hone, if_pos htwo]
  -- Both bytes are got back from the bits of the unit.
  congr
  · rw [← UInt8.toNat_inj, toNat_first2 (by omega)]
    omega
  · rw [← UInt8.toNat_inj, toNat_next]
    omega

/-- A unit of three bytes in shortest form is written as these. -/
theorem unitBytes_unit3 {a b c : UInt8} (ha : 0xe0 ≤ a.toNat) (ha' : a.toNat < 0xf0)
    (hlead : a.toNat = 0xe0 → 0xa0 ≤ b.toNat) (hb : Next b) (hc : Next c) :
    unitBytes (unit3 a b c) = [a, b, c] := by
  obtain ⟨hb, hb'⟩ := hb
  obtain ⟨hc, hc'⟩ := hc
  have hu := toNat_unit3 a b c
  have hone : ¬ (0x0001 ≤ unit3 a b c && unit3 a b c ≤ 0x007f) := by
    simp only [Bool.and_eq_true, decide_eq_true_eq, UInt16.le_iff_toNat_le, UInt16.reduceToNat]
    omega
  have htwo : ¬ unit3 a b c ≤ 0x07ff := by
    simp only [UInt16.le_iff_toNat_le, UInt16.reduceToNat]
    omega
  have hshift : (unit3 a b c >>> 6).toNat = (unit3 a b c).toNat / 64 := by
    simp [Nat.shiftRight_eq_div_pow]
  rw [unitBytes, if_neg hone, if_neg htwo]
  -- The three bytes are got back from the bits of the unit.
  congr
  · rw [← UInt8.toNat_inj, toNat_first3]
    omega
  · rw [← UInt8.toNat_inj, toNat_next, hshift]
    omega
  · rw [← UInt8.toNat_inj, toNat_next]
    omega

/-- Bytes in shortest form are those of some units. -/
theorem Shortest.exists_units {raw : Bytes} (h : Shortest raw) :
    ∃ units : List UInt16, raw = units.flatMap unitBytes := by
  -- One unit for each character of the form.
  induction h with
  | nil => exact ⟨[], rfl⟩
  | @one a rest ha ha' _ ih =>
    obtain ⟨units, rfl⟩ := ih
    have hu : a.toUInt16.toNat = a.toNat := UInt8.toNat_toUInt16 a
    have hone : unitBytes a.toUInt16 = [a] := by
      rw [unitBytes, if_pos]
      · simp
      · simp only [Bool.and_eq_true, decide_eq_true_eq, UInt16.le_iff_toNat_le, hu]
        exact ⟨ha, Nat.le_of_lt_succ ha'⟩
    exact ⟨a.toUInt16 :: units, by rw [List.flatMap_cons, hone, List.singleton_append]⟩
  | zero _ ih =>
    obtain ⟨units, rfl⟩ := ih
    exact ⟨0 :: units, rfl⟩
  | @two a b rest ha ha' hb _ ih =>
    obtain ⟨units, rfl⟩ := ih
    exact ⟨unit2 a b :: units, by rw [List.flatMap_cons, unitBytes_unit2 ha ha' hb]; rfl⟩
  | @three a b c rest ha ha' hlead hb hc _ ih =>
    obtain ⟨units, rfl⟩ := ih
    exact ⟨unit3 a b c :: units, by rw [List.flatMap_cons, unitBytes_unit3 ha ha' hlead hb hc]; rfl⟩

/-! ### Characters -/

/-- A unit that is no surrogate is the one unit of its character. -/
theorem charUnits_ofNat {u : UInt16} (hhigh : ¬ isHigh u) (hlow : ¬ isLow u) :
    charUnits (Char.ofNat u.toNat) = [u] := by
  rw [isHigh_iff] at hhigh
  rw [isLow_iff] at hlow
  have hu := u.toNat_lt
  have hvalid : u.toNat.isValidChar := by
    rw [Nat.isValidChar]
    omega
  have hchar : (Char.ofNat u.toNat).toNat = u.toNat := by
    rw [Char.ofNat, dif_pos hvalid]
    rfl
  rw [charUnits, hchar, if_pos (by omega)]
  simp

/-- A pair is made up of the two units of its character. -/
theorem charUnits_pairChar {high low : UInt16} (hhigh : isHigh high) (hlow : isLow low) :
    charUnits (pairChar high low) = [high, low] := by
  rw [isHigh_iff] at hhigh
  rw [isLow_iff] at hlow
  -- The number of the pair is beyond all surrogates.
  have hvalid : (0x10000 + (high.toNat - 0xd800) * 0x400 + (low.toNat - 0xdc00)).isValidChar := by
    rw [Nat.isValidChar]
    omega
  have hchar : (pairChar high low).toNat =
      0x10000 + (high.toNat - 0xd800) * 0x400 + (low.toNat - 0xdc00) := by
    rw [pairChar, Char.ofNat, dif_pos hvalid]
    rfl
  simp only [charUnits, hchar]
  rw [if_neg (by omega), List.cons.injEq, List.singleton_inj]
  constructor
  · rw [← UInt16.toNat_inj, toNat_toUInt16 (by omega)]
    omega
  · rw [← UInt16.toNat_inj, toNat_toUInt16 (by omega)]
    omega

/-- What was read before stays in front. -/
theorem charsFrom_eq_append (read : List (Option Char)) (waiting : Option UInt16)
    (units : List UInt16) :
    charsFrom read waiting units = read.reverse ++ charsFrom [] waiting units := by
  -- What is read next depends on a high unit that waits for its partner.
  induction units generalizing read waiting with
  | nil => cases waiting <;> simp [charsFrom]
  | cons u rest ih =>
    cases waiting with
    | none =>
      simp only [charsFrom]
      split
      · exact ih read (some u)
      · split <;> (rw [ih]; conv_rhs => rw [ih]) <;> simp
    | some high =>
      simp only [charsFrom]
      split
      · rw [ih]
        conv_rhs => rw [ih]
        simp
      · split <;> (rw [ih]; conv_rhs => rw [ih]) <;> simp

/-- Characters have the units they were read from, behind a first surrogate that waits. -/
private theorem flatMap_charUnits_of_charsFrom {waiting : Option UInt16} {units : List UInt16}
    {cs : List Char} (hwaiting : ∀ high, waiting = some high → isHigh high)
    (h : charsFrom [] waiting units = cs.map some) :
    cs.flatMap charUnits = waiting.toList ++ units := by
  induction units generalizing waiting cs with
  | nil =>
    cases waiting with
    | none =>
      obtain rfl := List.map_eq_nil_iff.1 h.symm
      rfl
    | some high => cases cs <;> cases h
  | cons u rest ih =>
    -- A character was read where no `none` stands, and the others are read from what is left.
    have hread {c : Option Char} (h : charsFrom [c] none rest = cs.map some) :
        ∃ d, c = some d ∧ cs.flatMap charUnits = charUnits d ++ rest := by
      rw [charsFrom_eq_append] at h
      cases cs with
      | nil => cases h
      | cons d cs =>
        obtain ⟨hd, hcs⟩ := List.cons.inj h
        refine ⟨d, hd, ?_⟩
        rw [List.flatMap_cons, ih (fun _ h => by cases h) hcs]
        rfl
    cases waiting with
    | none =>
      simp only [charsFrom] at h
      split at h
      · next hhigh => exact ih (fun _ heq => Option.some.inj heq ▸ hhigh) h
      · next hhigh =>
        split at h
        · obtain ⟨d, hd, -⟩ := hread h
          cases hd
        · next hlow =>
          obtain ⟨d, hd, hcs⟩ := hread h
          obtain rfl := Option.some.inj hd
          rw [hcs, charUnits_ofNat hhigh hlow]
          rfl
    | some high =>
      simp only [charsFrom] at h
      split at h
      · next hlow =>
        obtain ⟨d, hd, hcs⟩ := hread h
        obtain rfl := Option.some.inj hd
        rw [hcs, charUnits_pairChar (hwaiting high rfl) hlow]
        rfl
      -- A first surrogate without its partner is no character.
      · split at h <;> (rw [charsFrom_eq_append] at h; cases cs <;> cases h)

/-- Characters have the units they were read from. -/
theorem flatMap_charUnits_of_chars {units : List UInt16} {cs : List Char}
    (h : chars units = cs.map some) : cs.flatMap charUnits = units :=
  flatMap_charUnits_of_charsFrom (fun _ h => by cases h) h

/-! ### Texts -/

/-- What is written is in shortest form. -/
theorem Shortest.encode (text : String) : Shortest (encode text) := by
  rw [encode_eq_encodeUnits, encodeUnits, ← List.flatMap_assoc]
  induction text.toList.flatMap charUnits with
  | nil => exact .nil
  | cons u rest ih => exact ih.unitBytes_append u

/-- A text that was read exactly has the units that were stored. -/
theorem units?_of_decode? {raw : Bytes} {text : String}
    (h : decode? raw = some { text, exact := true }) :
    units? raw = some (text.toList.flatMap charUnits) := by
  rw [decode?_eq_decodeUnits?, decodeUnits?] at h
  obtain ⟨units, hunits, hread⟩ := Option.map_eq_some_iff.1 h
  obtain ⟨htext, hexact⟩ := Decoded.mk.inj hread
  -- No character is missing, so none was filled in.
  have hchars : chars units = text.toList.map some := by
    rw [← htext, String.toList_ofList, List.map_map]
    conv_lhs => rw [← List.map_id (chars units)]
    refine List.map_congr_left fun c hc => ?_
    obtain ⟨d, rfl⟩ := Option.isSome_iff_exists.1 (List.all_eq_true.1 hexact c hc)
    rfl
  rw [flatMap_charUnits_of_chars hchars, hunits]

/-- A text that was read exactly is written as it was stored iff that was in shortest form. -/
theorem encode_eq_iff_shortest {raw : Bytes} {text : String}
    (h : decode? raw = some { text, exact := true }) :
    ModifiedUtf8.encode text = raw ↔ Shortest raw := by
  constructor
  · rintro rfl
    exact .encode text
  · intro hraw
    -- The bytes are those of some units, and these are the ones that were read.
    obtain ⟨units, rfl⟩ := hraw.exists_units
    have hunits := units?_of_decode? h
    rw [units?, unitsFrom_flatMap_unitBytes] at hunits
    rw [encode_eq_encodeUnits, encodeUnits, ← List.flatMap_assoc, ← Option.some.inj hunits]
    rfl

end Relabel.ModifiedUtf8
