import Relabel.ClassFile.Basic
import Relabel.Proofs.Pool.Interning

/-!
# What a decoded class starts with

A pool that has just been read has no index yet, and its slot 0 is unusable. If its slots also have
indices of 16 bits, it is coherent.
-/

namespace Relabel

namespace Pool

variable {count : UInt16} {fuel : Nat} {index : UInt16}

/-- At the count the reading of slots ends. -/
theorem decodeSlots_of_not_lt (h : ¬ index < count) (slots : Array Constant) :
    decodeSlots count (fuel + 1) index slots = pure slots := by
  rw [decodeSlots, if_neg h]

/-- An entry is read into the slots behind those there are. -/
theorem decodeSlots_of_lt (h : index < count) (slots : Array Constant) :
    decodeSlots count (fuel + 1) index slots = (do
      let c ← Constant.decode index
      decodeSlots count fuel (index + c.filling.length.toUInt16) (slots ++ c.filling.toArray)) := by
  rw [decodeSlots, if_pos h]
  refine congrArg _ (funext fun c => ?_)
  cases hwide : c.isWide with
  | false =>
    simp only [Constant.filling, hwide, Bool.false_eq_true, if_false]
    rfl
  | true =>
    simp only [Constant.filling, hwide, if_true]
    rfl

/-- Reading entries only appends slots. -/
theorem getElem?_decodeSlots {slots slots' : Array Constant} {input input' : Input}
    (h : decodeSlots count fuel index slots input = .ok slots' input') {i : Nat} {c : Constant}
    (hi : slots[i]? = some c) : slots'[i]? = some c := by
  induction fuel generalizing index slots input with
  | zero =>
    obtain ⟨rfl, -⟩ := EStateM.pure_eq_ok.1 h
    exact hi
  | succ fuel ih =>
    by_cases hindex : index < count
    · rw [decodeSlots_of_lt hindex] at h
      obtain ⟨constant, input₁, -, h⟩ := EStateM.bind_eq_ok.1 h
      -- The slot is in front of those that are appended.
      have hlt : i < slots.size := (Array.getElem?_eq_some_iff.1 hi).1
      exact ih h ((Array.getElem?_append_left hlt).trans hi)
    · rw [decodeSlots_of_not_lt hindex] at h
      obtain ⟨rfl, -⟩ := EStateM.pure_eq_ok.1 h
      exact hi

/-- A pool that is read has no search index, and its first slot is free. -/
theorem decode_ok {input input' : Input} {pool : Pool} (h : decode input = .ok pool input') :
    pool.index = none ∧ pool.slots[0]? = some .unusable := by
  simp only [decode, EStateM.bind_eq_ok, EStateM.pure_eq_ok] at h
  obtain ⟨count, _, -, rest, _, -, slots, _, hslots, rfl, rfl⟩ := h
  exact ⟨rfl, getElem?_decodeSlots hslots rfl⟩

/-- A pool without an index is coherent if its slots have indices. -/
theorem coherent_of_index_eq_none {pool : Pool} (hindex : pool.index = none)
    (hfirst : pool.slots[0]? = some .unusable) (hsize : pool.size ≤ 65536) : pool.Coherent where
  size_le := hsize
  first := hfirst
  sound index h := by simp [hindex] at h
  complete index h := by simp [hindex] at h

end Pool

namespace ClassFile

/-- The pool of a class file is one that is read. -/
theorem decoder_ok {input input' : Input} {c : ClassFile} (h : decoder input = .ok c input') :
    ∃ input₁ input₂, Pool.decode input₁ = .ok c.pool input₂ := by
  simp only [decoder, EStateM.bind_eq_ok] at h
  obtain ⟨found, _, -, h⟩ := h
  split at h
  · obtain ⟨_, _, hthrow, -⟩ := EStateM.bind_eq_ok.1 h
    exact (EStateM.throw_eq_ok.1 hthrow).elim
  · simp only [EStateM.bind_eq_ok, EStateM.pure_eq_ok] at h
    obtain ⟨_, _, -, _, input₁, -, pool, input₂, hpool, h⟩ := h
    obtain ⟨_, _, -, _, _, -, _, _, -, _, _, -, _, _, -, _, _, -, _, _, -, rfl, -⟩ := h
    exact ⟨input₁, input₂, hpool⟩

/-- A class is read from all of its bytes, and has a name. -/
theorem decode_ok {data : Bytes} {c : ClassFile} (h : decode data = .ok c) :
    ∃ input, decoder { rest := data } = .ok c input ∧ input.rest = [] ∧
      ∃ name, c.name = .ok name := by
  unfold decode at h
  split at h
  · cases h
  · next d input hd =>
    split at h
    · next hempty =>
      obtain ⟨name, hname, h⟩ := Except.bind_eq_ok.1 h
      obtain rfl := Except.pure_eq_ok.1 h
      exact ⟨input, hd, List.isEmpty_iff.1 hempty, name, hname⟩
    · cases h

/-- The pool of a class that was read is coherent if its slots have indices. -/
theorem coherent_of_decode {data : Bytes} {c : ClassFile} (h : decode data = .ok c)
    (hsize : c.pool.size ≤ 65536) : c.pool.Coherent := by
  obtain ⟨input, hdecoder, -⟩ := decode_ok h
  obtain ⟨input₁, input₂, hpool⟩ := decoder_ok hdecoder
  obtain ⟨hindex, hfirst⟩ := Pool.decode_ok hpool
  exact Pool.coherent_of_index_eq_none hindex hfirst hsize

end ClassFile

end Relabel
