import Relabel.Proofs.ClassFile.Codec
import Relabel.Proofs.ClassFile.Decoding

/-!
# Well-formed classes

The slots of a pool are laid out when slot 0 is free, each other free slot stands behind a wide
entry and behind each wide entry there is one, and a text that is not exact reads as its bytes do. A
class is well formed when its pool is laid out and its own name can be read. What is read from a
file is always well formed.

## Main results

- `Pool.LaidOut.push`, `Pool.LaidOut.pushWide`: entries appended one by one stay laid out.
- `Constant.entry_of_decode`: what is read for one entry.
- `ClassFile.wellFormed_of_decode`: what is read is well formed.
-/

namespace Relabel

/-- A constant that stands for an entry of its own: not what fills a slot behind a wide entry, and
not a text that reads otherwise than its bytes. -/
def Constant.Entry : Constant → Prop
  | .unusable => False
  | .lossyUtf8 text raw => ModifiedUtf8.decode? raw = some { text, exact := false }
  | _ => True

theorem Constant.Entry.ne_unusable {c : Constant} (h : c.Entry) : c ≠ .unusable := by
  rintro rfl
  exact h

namespace Pool

/-- Slots as the format lays them out. -/
structure LaidOut (slots : Array Constant) : Prop where
  first : slots[0]? = some .unusable
  /-- Behind the first, a slot is free iff the one before it holds a wide entry. -/
  wide : ∀ i : Nat, slots[i + 1]? = some .unusable ↔ ∃ c, slots[i]? = some c ∧ c.isWide
  /-- A text that is not exact reads as its bytes do. -/
  lossy : ∀ (i : Nat) (text : String) (raw : Bytes), slots[i]? = some (.lossyUtf8 text raw) →
    ModifiedUtf8.decode? raw = some { text, exact := false }

namespace LaidOut

variable {slots : Array Constant} {c : Constant}

/-- What a slot holds is an entry, unless the slot belongs to the one before it. -/
theorem entry (h : LaidOut slots) {i : Nat} (hi : slots[i]? = some c) (hc : c ≠ .unusable) :
    c.Entry := by
  cases c with
  | unusable => exact absurd rfl hc
  | lossyUtf8 text raw => exact h.lossy i text raw hi
  | _ => exact trivial

/-- The slot behind an entry that takes one slot is not free. -/
theorem ne_unusable_of_narrow (h : LaidOut slots) {i : Nat} (hi : slots[i]? = some c)
    (hnarrow : c.isWide = false) : slots[i + 1]? ≠ some .unusable := by
  intro hfree
  obtain ⟨d, hd, hwide⟩ := (h.wide i).1 hfree
  obtain rfl := Option.some.inj (hi.symm.trans hd)
  rw [hnarrow] at hwide
  cases hwide

/-- The slots of a pool without entries. -/
theorem empty : LaidOut #[.unusable] where
  first := rfl
  wide i := by
    constructor
    · intro h
      simp at h
    · rintro ⟨c, hc, hwide⟩
      obtain ⟨hlt, rfl⟩ := Array.getElem?_eq_some_iff.1 hc
      obtain rfl : i = 0 := Nat.lt_one_iff.1 hlt
      cases hwide
  lossy i text raw h := by
    obtain ⟨hlt, heq⟩ := Array.getElem?_eq_some_iff.1 h
    obtain rfl : i = 0 := Nat.lt_one_iff.1 hlt
    cases heq

/-- An entry that takes one slot can stand behind all others. -/
theorem push (h : LaidOut slots) (hc : c.Entry) (hnarrow : c.isWide = false) :
    LaidOut (slots.push c) where
  first := getElem?_slots_push.2 (.inl h.first)
  wide i := by
    constructor
    · intro hfree
      rcases getElem?_slots_push.1 hfree with hold | ⟨-, heq⟩
      · obtain ⟨d, hd, hwide⟩ := (h.wide i).1 hold
        exact ⟨d, getElem?_slots_push.2 (.inl hd), hwide⟩
      -- An entry is never free, so the free slot is an old one.
      · exact absurd heq hc.ne_unusable
    · rintro ⟨d, hd, hwide⟩
      rcases getElem?_slots_push.1 hd with hold | ⟨-, rfl⟩
      · exact getElem?_slots_push.2 (.inl ((h.wide i).2 ⟨d, hold, hwide⟩))
      · rw [hnarrow] at hwide
        cases hwide
  lossy i text raw hi := by
    rcases getElem?_slots_push.1 hi with hold | ⟨-, rfl⟩
    · exact h.lossy i text raw hold
    · exact hc

/-- A wide entry can stand behind all others, with a free slot behind it. -/
theorem pushWide (h : LaidOut slots) (hwide : c.isWide) :
    LaidOut ((slots.push c).push .unusable) where
  first := getElem?_slots_push.2 (.inl (getElem?_slots_push.2 (.inl h.first)))
  wide i := by
    have hsize : (slots.push c).size = slots.size + 1 := Array.size_push c
    constructor
    -- A slot without a use is one of the old ones, or the one behind the new constant.
    · intro hfree
      rcases getElem?_slots_push.1 hfree with hpush | ⟨hi, -⟩
      · rcases getElem?_slots_push.1 hpush with hold | ⟨-, rfl⟩
        · obtain ⟨d, hd, hwide'⟩ := (h.wide i).1 hold
          exact ⟨d, getElem?_slots_push.2 (.inl (getElem?_slots_push.2 (.inl hd))), hwide'⟩
        · cases hwide
      · have hi : i = slots.size := by omega
        exact ⟨c, getElem?_slots_push.2 (.inl (getElem?_slots_push.2 (.inr ⟨hi, rfl⟩))), hwide⟩
    · rintro ⟨d, hd, hwide'⟩
      rcases getElem?_slots_push.1 hd with hpush | ⟨-, rfl⟩
      · rcases getElem?_slots_push.1 hpush with hold | ⟨rfl, -⟩
        · have hfree := (h.wide i).2 ⟨d, hold, hwide'⟩
          exact getElem?_slots_push.2 (.inl (getElem?_slots_push.2 (.inl hfree)))
        · exact getElem?_slots_push.2 (.inr ⟨hsize.symm, rfl⟩)
      · cases hwide'
  lossy i text raw hi := by
    rcases getElem?_slots_push.1 hi with hpush | ⟨-, heq⟩
    · rcases getElem?_slots_push.1 hpush with hold | ⟨-, rfl⟩
      · exact h.lossy i text raw hold
      · cases hwide
    · cases heq

end LaidOut

end Pool

/-! ### What is read -/

namespace Decoder

variable {α β : Type} {P : β → Prop}

/-- Whatever the decoder gives has the property. -/
def Gives (d : Decoder β) (P : β → Prop) : Prop :=
  ∀ input b input', d input = .ok b input' → P b

theorem Gives.pure {b : β} (h : P b) : (Pure.pure b : Decoder β).Gives P := by
  intro input b' input' hrun
  obtain ⟨rfl, -⟩ := EStateM.pure_eq_ok.1 hrun
  exact h

/-- Two steps give what the second gives. -/
theorem Gives.bind {d : Decoder α} {f : α → Decoder β} (h : ∀ a, (f a).Gives P) :
    (d >>= f).Gives P := by
  intro input b input' hrun
  obtain ⟨a, input₁, -, hf⟩ := EStateM.bind_eq_ok.1 hrun
  exact h a input₁ b input' hf

theorem Gives.throw {e : FormatError} : (MonadExcept.throw e : Decoder β).Gives P :=
  fun _ _ _ h => (EStateM.throw_eq_ok.1 h).elim

end Decoder

namespace Constant

/-- A text is read as an entry. -/
theorem gives_decodeUtf8 (index : UInt16) : (decodeUtf8 index).Gives Entry := by
  refine .bind fun length => .bind fun raw => ?_
  split
  · exact .pure trivial
  · next text hread => exact .pure hread
  · exact .throw

/-- What is read for an entry is one. -/
theorem gives_decode (index : UInt16) : (decode index).Gives Entry := by
  refine .bind fun tag => ?_
  split
  · exact gives_decodeUtf8 index
  -- Whatever the numbers behind any other tag are, they make up an entry.
  any_goals exact .bind fun _ => .pure trivial
  any_goals exact .bind fun _ => .bind fun _ => .pure trivial
  exact .throw

end Constant

namespace Pool

/-- Reading entries keeps slots laid out. -/
theorem LaidOut.of_decodeSlots {count : UInt16} {fuel : Nat} {index : UInt16}
    {slots slots' : Array Constant} {input input' : Input} (hslots : LaidOut slots)
    (h : decodeSlots count fuel index slots input = .ok slots' input') : LaidOut slots' := by
  induction fuel generalizing index slots input with
  | zero =>
    obtain ⟨rfl, -⟩ := EStateM.pure_eq_ok.1 h
    exact hslots
  | succ fuel ih =>
    unfold decodeSlots at h
    split at h
    · obtain ⟨constant, input₁, hconstant, h⟩ := EStateM.bind_eq_ok.1 h
      -- A wide constant takes the slot behind it as well.
      split at h
      · next hwide => exact ih (hslots.pushWide hwide) h
      · next hnarrow =>
        have hentry := Constant.gives_decode index _ _ _ hconstant
        exact ih (hslots.push hentry (Bool.eq_false_iff.2 hnarrow)) h
    · obtain ⟨rfl, -⟩ := EStateM.pure_eq_ok.1 h
      exact hslots

/-- A pool that is read is laid out. -/
theorem laidOut_of_decode {input input' : Input} {pool : Pool}
    (h : decode input = .ok pool input') : LaidOut pool.slots := by
  simp only [decode, EStateM.bind_eq_ok, EStateM.pure_eq_ok] at h
  obtain ⟨count, _, -, rest, _, -, slots, _, hslots, rfl, rfl⟩ := h
  exact LaidOut.empty.of_decodeSlots hslots

end Pool

namespace ClassFile

/-- The slots are laid out and the class has a name. -/
structure WellFormed (c : ClassFile) : Prop where
  laidOut : Pool.LaidOut c.pool.slots
  named : ∃ name, c.name = .ok name

/-- A class that is read is well formed, and nothing was searched for in its pool. -/
theorem wellFormed_of_decode {data : Bytes} {c : ClassFile} (h : decode data = .ok c) :
    c.WellFormed ∧ c.pool.index = none := by
  obtain ⟨input, hdecoder, -, hname⟩ := decode_ok h
  obtain ⟨input₁, input₂, hpool⟩ := decoder_ok hdecoder
  exact ⟨⟨Pool.laidOut_of_decode hpool, hname⟩, (Pool.decode_ok hpool).1⟩

end ClassFile

end Relabel
