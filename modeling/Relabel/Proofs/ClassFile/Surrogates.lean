import Mathlib.Data.List.Basic
import Relabel.Proofs.ClassFile.ModifiedUtf8

/-!
# Surrogates without a partner

What makes a text that is read not exact, said by the place of a unit among the others: a surrogate
that starts a pair has one that ends a pair behind it, and one that ends a pair has one that starts a
pair in front of it. A surrogate that starts a pair never ends one, so which two make a pair does not
depend on where reading begins.

## Main results

- `none_mem_chars_iff`: units read as characters unless a surrogate among them is unpaired.
- `mem_encode`: which bytes a text is written with.
- `lossless`: writing and reading lose nothing but unpaired surrogates.
-/

namespace Relabel.ModifiedUtf8

variable {u high : UInt16} {units rest : List UInt16} {read : List (Option Char)}
  {front next : Option UInt16} {b : UInt8} {text : String} {raw : Bytes}

/-! ### Unpaired surrogates -/

/-- A unit is a surrogate without its partner, between the units next to it. -/
def Lone (front : Option UInt16) (u : UInt16) (next : Option UInt16) : Prop :=
  isHigh u ∧ ¬ next.any isLow ∨ isLow u ∧ ¬ front.any isHigh

/-- One of the units is a surrogate without its partner. -/
def Unpaired (units : List UInt16) : Prop :=
  ∃ before u after, units = before ++ u :: after ∧ Lone before.getLast? u after.head?

/-- The same for units that follow another one. -/
def UnpairedBehind (front : Option UInt16) (units : List UInt16) : Prop :=
  ∃ before u after, units = before ++ u :: after ∧ Lone (before.getLast?.or front) u after.head?

/-- With nothing in front a surrogate is unpaired as in the units alone. -/
theorem unpairedBehind_none : UnpairedBehind none units ↔ Unpaired units := by
  simp only [UnpairedBehind, Option.or_none, Unpaired]

theorem not_unpairedBehind_nil : ¬ UnpairedBehind front [] := by
  rintro ⟨before, u, after, h, -⟩
  exact List.append_ne_nil_of_right_ne_nil before (List.cons_ne_nil u after) h.symm

/-- A surrogate is unpaired at the front, or behind. -/
theorem unpairedBehind_cons :
    UnpairedBehind front (u :: units) ↔ Lone front u units.head? ∨ UnpairedBehind (some u) units := by
  constructor
  · rintro ⟨before, v, after, h, hlone⟩
    cases before with
    -- The first unit is the lone one, or stands in front of it as its neighbour.
    | nil =>
      obtain ⟨rfl, rfl⟩ := List.cons.inj h
      exact .inl hlone
    | cons w before =>
      obtain ⟨rfl, rfl⟩ := List.cons.inj h
      refine .inr ⟨before, v, after, rfl, ?_⟩
      rwa [List.getLast?_cons, Option.or_of_isSome (by simp), ← Option.or_some] at hlone
  · rintro (hlone | ⟨before, v, after, rfl, hlone⟩)
    · exact ⟨[], u, units, rfl, hlone⟩
    · refine ⟨u :: before, v, after, rfl, ?_⟩
      rwa [List.getLast?_cons, Option.or_of_isSome (by simp), ← Option.or_some]

/-- No unit starts a pair and ends one. -/
theorem isLow_eq_false_of_isHigh (h : isHigh u) : isLow u = false := by
  rw [isHigh_iff] at h
  rw [Bool.eq_false_iff, ne_eq, isLow_iff]
  omega

/-- Behind a unit that starts no pair, one that ends a pair is alone. -/
theorem lone_iff_of_front (hfront : ¬ front.any isHigh) :
    Lone front u next ↔ isHigh u ∧ ¬ next.any isLow ∨ isLow u := by
  rw [Lone, and_iff_left hfront]

/-- Behind a high surrogate a unit is alone if it is another one with no low one behind it. -/
theorem lone_some_iff (hhigh : isHigh high) :
    Lone (some high) u next ↔ isHigh u ∧ ¬ next.any isLow := by
  simp [Lone, hhigh]

/-! ### Reading -/

/-- What is read and what waits for its partner: a surrogate is given up exactly where it has no
partner. Behind `front` no surrogate waits. -/
theorem none_mem_charsFrom (units : List UInt16) :
    (∀ read front, ¬ front.any isHigh →
      (none ∈ charsFrom read none units ↔ none ∈ read ∨ UnpairedBehind front units)) ∧
    ∀ read high, isHigh high →
      (none ∈ charsFrom read (some high) units ↔
        none ∈ read ∨ ¬ units.head?.any isLow ∨ UnpairedBehind (some high) units) := by
  induction units with
  | nil => simp [charsFrom, not_unpairedBehind_nil]
  | cons u rest ih =>
    obtain ⟨ihNone, ihSome⟩ := ih
    constructor
    · intro read front hfront
      rw [unpairedBehind_cons, lone_iff_of_front hfront, charsFrom]
      split
      -- Without a waiting surrogate, a high one waits, a low one is lone, and others are read.
      · next hhigh => simp [ihSome _ u hhigh, hhigh, isLow_eq_false_of_isHigh hhigh]
      · next hhigh =>
        have hu : ¬ (some u).any isHigh := hhigh
        split
        · next hlow => simp [ihNone _ _ hu, hlow]
        · next hlow => simp [ihNone _ _ hu, hhigh, hlow]
    · intro read high hhigh
      rw [unpairedBehind_cons, lone_some_iff hhigh, charsFrom]
      split
      -- Only a low surrogate completes the waiting one; behind it nothing waits.
      · next hlow =>
        have hu : ¬ isHigh u := fun hu => by simp [isLow_eq_false_of_isHigh hu] at hlow
        simp [ihNone _ (some u) hu, hlow, hu]
      · next hlow =>
        split
        · next hu => simp [ihSome _ u hu, hlow]
        · next hu => simp [ihNone _ (some u) hu, hlow]

/-- Units read as characters unless a surrogate among them is unpaired. -/
theorem none_mem_chars_iff : none ∈ chars units ↔ Unpaired units := by
  rw [chars, (none_mem_charsFrom units).1 [] none Bool.false_ne_true, unpairedBehind_none]
  simp

/-- What was read is not exact exactly where a surrogate is unpaired. -/
theorem exact_eq_false_iff {d : Decoded} (h : decodeUnits? raw = some d) :
    ∃ units, units? raw = some units ∧ (d.exact = false ↔ Unpaired units) := by
  obtain ⟨units, hunits, rfl⟩ := Option.map_eq_some_iff.1 h
  refine ⟨units, hunits, ?_⟩
  rw [← none_mem_chars_iff]
  simp

/-! ### Writing -/

/-- No byte of a unit is zero or above those that start three bytes. -/
theorem mem_unitBytes (h : b ∈ unitBytes u) : b ≠ 0 ∧ b ≤ 0xef := by
  have hu := u.toNat_lt
  have hnext := toNat_next u
  suffices 0 < b.toNat ∧ b.toNat ≤ 0xef by
    refine ⟨fun hzero => ?_, UInt8.le_iff_toNat_le.2 this.2⟩
    rw [hzero] at this
    exact absurd this.1 (Nat.lt_irrefl 0)
  unfold unitBytes at h
  split at h
  · next hone =>
    simp only [Bool.and_eq_true, decide_eq_true_eq, UInt16.le_iff_toNat_le,
      UInt16.reduceToNat] at hone
    rw [List.mem_singleton] at h
    rw [h, UInt16.toNat_toUInt8]
    omega
  · split at h
    · next htwo =>
      have hfirst := toNat_first2 (Nat.lt_succ_of_le (UInt16.le_iff_toNat_le.1 htwo))
      have htwo : u.toNat ≤ 0x7ff := UInt16.le_iff_toNat_le.1 htwo
      rcases List.mem_pair.1 h with rfl | rfl <;> omega
    · have hfirst := toNat_first3 u
      have hmiddle := toNat_next (u >>> 6)
      simp only [List.mem_cons, List.not_mem_nil, or_false] at h
      rcases h with rfl | rfl | rfl <;> omega

/-- No byte of a text is zero or above those that start three bytes. -/
theorem mem_encode (h : b ∈ encode text) : b ≠ 0 ∧ b ≤ 0xef := by
  rw [encode_eq_encodeUnits] at h
  obtain ⟨c, -, hc⟩ := List.mem_flatMap.1 h
  obtain ⟨u, -, hu⟩ := List.mem_flatMap.1 hc
  exact mem_unitBytes hu

/-! ### Both -/

/-- Every text reads back as it was written, from bytes that are neither zero nor above `0xef`, and
plain texts and plain bytes are no exception to how units are written and read. What is read is not
exact if and only if a surrogate among its units is unpaired. -/
theorem lossless (text : String) (raw : Bytes) :
    decode? (encode text) = some { text, exact := true } ∧
      (∀ b ∈ encode text, b ≠ 0 ∧ b ≤ 0xef) ∧
      encode text = encodeUnits text ∧ decode? raw = decodeUnits? raw ∧
      ∀ d ∈ decode? raw, ∃ units, units? raw = some units ∧ (d.exact = false ↔ Unpaired units) := by
  refine ⟨decode?_encode text, fun b => mem_encode, encode_eq_encodeUnits text,
    decode?_eq_decodeUnits? raw, fun d hd => ?_⟩
  rw [Option.mem_def, decode?_eq_decodeUnits?] at hd
  exact exact_eq_false_iff hd

-- Two surrogates in the wrong order are no pair, though the second could start one.
example : decode? [0xed, 0xb0, 0x80, 0xed, 0xa0, 0x80] =
    some { text := "\ufffd\ufffd", exact := false } := by decide +kernel

end Relabel.ModifiedUtf8
