import Mathlib.Logic.Relation
import Relabel.ClassFile.Pool
import Relabel.Proofs.Steps

/-!
# Interning

A search in a pool either finds an entry or appends one. While a class is relabeled only texts and
names with their descriptors are searched for, and only classes, member references, method types
and dynamic constants are replaced. This keeps a pool *coherent*: its index leads to entries that
hold what they are found by, and misses no text and no name with its descriptor.

## Main results

- `Pool.push_eq_ok`, `Pool.getElem?_of_noteKey`, `Pool.getElem?_of_forgetKey`: what one change does
  to the slots, and where the index leads after it.
- `Pool.Sound.push`, `Pool.Sound.intern`: what is appended or found stands in the slot given.
- `Pool.Coherent.intern`: one search keeps a pool coherent, `Extends` it and gives the slot that
  holds what was searched for.
- `Pool.Interns.coherent`: any number of searches keeps a pool coherent.
- `Pool.OnlyInterns`: the steps that do nothing to a pool but search it.
-/

namespace Relabel

namespace Constant

/-- Whether an entry is a text, or a name with its descriptor. -/
def isName : Constant → Bool
  | .utf8 _ | .nameAndType _ _ => true
  | _ => false

/-- Whether relabeling points an entry elsewhere: a class, a member reference, a method type, a
dynamic constant or a call site. -/
def isPointer : Constant → Bool
  | .ofClass _ | .member _ _ _ | .methodType _ | .dynamic _ _ | .invokeDynamic _ _ => true
  | _ => false

/-- A name points at nothing that relabeling changes. -/
theorem isPointer_eq_false_of_isName {c : Constant} (h : c.isName) : c.isPointer = false := by
  cases c <;> simp_all [isName, isPointer]

/-- A name fills one slot. -/
theorem isWide_eq_false_of_isName {c : Constant} (h : c.isName) : c.isWide = false := by
  cases c <;> simp_all [isName, isWide]

/-- The one entry that is found by a key. -/
def ofKey : SearchKey → Constant
  | .utf8 text => .utf8 text
  | .ofClass name => .ofClass name
  | .nameAndType name desc => .nameAndType name desc

/-- An entry is found by its key, and no other entry is. -/
theorem key?_eq_some_iff {c : Constant} {key : SearchKey} : c.key? = some key ↔ c = ofKey key := by
  cases c <;> cases key <;> simp [key?, ofKey]

/-- The slots that an entry fills. -/
def filling (c : Constant) : List Constant :=
  if c.isWide then [c, .unusable] else [c]

theorem length_filling (c : Constant) : c.filling.length = if c.isWide then 2 else 1 := by
  unfold filling
  split <;> rfl

/-- The first of these slots holds the entry. -/
theorem getElem?_append_filling (slots : Array Constant) (c : Constant) :
    (slots ++ c.filling.toArray)[slots.size]? = some c := by
  rw [Array.getElem?_append_right (Nat.le_refl _), Nat.sub_self, filling]
  split <;> rfl

theorem mem_filling {c d : Constant} (h : d ∈ c.filling) : d = c ∨ d = .unusable := by
  unfold filling at h
  split at h <;> simp_all

end Constant

namespace Pool

/-! ### Coherent pools -/

/-- The index of a pool, once it is built, leads to entries with the key asked for. -/
def Sound (p : Pool) : Prop :=
  ∀ index ∈ p.index, ∀ (key : SearchKey) (i : UInt16), index[key]? = some i →
    p.get? i = some (.ofKey key)

/-- Every slot has an index of 16 bits, the first is never used, and the index of the pool, once it
is built, leads to entries with the key asked for and misses no name. -/
structure Coherent (p : Pool) : Prop where
  size_le : p.size ≤ 65536
  first : p.slots[0]? = some .unusable
  sound : ∀ index ∈ p.index, ∀ (key : SearchKey) (i : UInt16), index[key]? = some i →
    p.get? i = some (.ofKey key)
  complete : ∀ index ∈ p.index, ∀ (key : SearchKey) (i : Nat), (Constant.ofKey key).isName →
    p.slots[i]? = some (.ofKey key) → key ∈ index

/-- `q` is `p` with names behind all its entries, each of which stands in one slot only. -/
structure Extends (p q : Pool) : Prop where
  old : ∀ (i : Nat) (c : Constant), p.slots[i]? = some c → q.slots[i]? = some c
  new : ∀ (i : Nat) (c : Constant), p.size ≤ i → q.slots[i]? = some c →
    c.isName ∧ ∀ j : Nat, q.slots[j]? = some c → j = i

/-- A slot that holds an entry is one of the pool. -/
theorem lt_size_of_getElem? {p : Pool} {i : Nat} {c : Constant} (h : p.slots[i]? = some c) :
    i < p.size :=
  (Array.getElem?_eq_some_iff.1 h).1

/-- Where a pool keeps the entries of another, a slot that was there before holds what it held. -/
theorem getElem?_of_lt {p q : Pool}
    (hold : ∀ (i : Nat) (c : Constant), p.slots[i]? = some c → q.slots[i]? = some c) {i : Nat}
    {c : Constant} (hi : i < p.size) (hc : q.slots[i]? = some c) : p.slots[i]? = some c := by
  have hget := hold i _ (Array.getElem?_eq_getElem hi)
  rw [Array.getElem?_eq_getElem hi, ← hget, hc]

namespace Extends

theorem refl (p : Pool) : p.Extends p where
  old _ _ h := h
  new i c hi hc := by
    exact absurd (lt_size_of_getElem? hc) (Nat.not_lt.2 hi)

/-- An entry that stood in one slot only still does: what is appended differs from it. -/
theorem only {p q : Pool} (h : p.Extends q) {i : Nat} {c : Constant} (hi : p.slots[i]? = some c)
    (honly : ∀ j : Nat, p.slots[j]? = some c → j = i) (j : Nat) (hj : q.slots[j]? = some c) :
    j = i := by
  by_cases hjp : p.size ≤ j
  · exact ((h.new j c hjp hj).2 i (h.old i c hi)).symm
  · exact honly j (getElem?_of_lt h.old (Nat.lt_of_not_le hjp) hj)

/-- Extending goes on from pool to pool. -/
theorem trans {p q r : Pool} (h : p.Extends q) (h' : q.Extends r) : p.Extends r where
  old i c hc := h'.old i c (h.old i c hc)
  new i c hi hc := by
    by_cases hq : q.size ≤ i
    · exact h'.new i c hq hc
    -- An entry that the first step added is still alone after the second.
    · have hci := getElem?_of_lt h'.old (Nat.lt_of_not_le hq) hc
      obtain ⟨hname, honly⟩ := h.new i c hi hci
      exact ⟨hname, h'.only hci honly⟩

end Extends

/-! ### The index of a row of slots -/

theorem toNat_toUInt16_of_lt {n : Nat} (h : n < 65536) : n.toUInt16.toNat = n :=
  UInt16.toNat_ofNat_of_lt' h

/-- In a pool of at most 65536 slots, the number of a slot leads to its entry. -/
theorem get?_toUInt16 {p : Pool} {i : Nat} {c : Constant} (hp : p.size ≤ 65536)
    (hc : p.slots[i]? = some c) : p.get? i.toUInt16 = some c := by
  rw [get?, toNat_toUInt16_of_lt (Nat.lt_of_lt_of_le (lt_size_of_getElem? hc) hp)]
  exact hc

/-- The entries after slot 0 with their numbers. -/
theorem mem_drop_zipIdx {slots : Array Constant} {c : Constant} {i : Nat} :
    (c, i) ∈ slots.toList.zipIdx.drop 1 ↔ 1 ≤ i ∧ slots[i]? = some c := by
  rw [List.mem_iff_getElem?]
  constructor
  · rintro ⟨j, hj⟩
    rw [List.getElem?_drop, List.getElem?_zipIdx, Array.getElem?_toList] at hj
    obtain ⟨d, hd, heq⟩ := Option.map_eq_some_iff.1 hj
    simp only [Prod.mk.injEq, Nat.zero_add] at heq
    obtain ⟨rfl, rfl⟩ := heq
    exact ⟨Nat.le_add_right 1 j, hd⟩
  · rintro ⟨hi, hc⟩
    refine ⟨i - 1, ?_⟩
    rw [List.getElem?_drop, List.getElem?_zipIdx, Array.getElem?_toList,
      Nat.add_sub_cancel' hi, hc]
    simp

/-- What `indexOf` finds in an index after noting the entries of a list: what was there before, or
one of the entries. -/
private theorem getElem?_noteAll {entries : List (Constant × Nat)}
    {index : Std.HashMap SearchKey UInt16} {key : SearchKey} {i : UInt16}
    (h : (entries.foldl (fun index (constant, i) =>
      match constant.key? with
      | some key => index.insertIfNew key i.toUInt16
      | none => index) index)[key]? = some i) :
    index[key]? = some i ∨ ∃ j, (Constant.ofKey key, j) ∈ entries ∧ j.toUInt16 = i := by
  induction entries generalizing index with
  | nil => exact .inl h
  | cons entry rest ih =>
    obtain ⟨c, j⟩ := entry
    rw [List.foldl_cons] at h
    -- Either a later entry was noted under the key, or this one or none was.
    rcases ih h with hrest | ⟨k, hmem, hk⟩
    · cases hc : c.key? with
      | none =>
        simp only [hc] at hrest
        exact .inl hrest
      | some key' =>
        simp only [hc, Std.HashMap.getElem?_insertIfNew] at hrest
        split at hrest
        · next heq =>
          obtain rfl : key' = key := by simpa using heq.1
          obtain rfl := Constant.key?_eq_some_iff.1 hc
          exact .inr ⟨j, List.mem_cons_self, Option.some.inj hrest⟩
        · exact .inl hrest
    · exact .inr ⟨k, List.mem_cons_of_mem _ hmem, hk⟩

/-- Going through entries enters the keys of all of them. -/
private theorem mem_noteAll {entries : List (Constant × Nat)}
    {index : Std.HashMap SearchKey UInt16} {key : SearchKey}
    (h : key ∈ index ∨ ∃ j, (Constant.ofKey key, j) ∈ entries) :
    key ∈ entries.foldl (fun index (constant, i) =>
      match constant.key? with
      | some key => index.insertIfNew key i.toUInt16
      | none => index) index := by
  induction entries generalizing index with
  | nil => simpa using h
  | cons entry rest ih =>
    obtain ⟨c, j⟩ := entry
    rw [List.foldl_cons]
    apply ih
    -- A key that was there before stays; the first entry adds its own.
    rcases h with hmem | ⟨k, hmem⟩
    · left
      dsimp only
      split
      · exact Std.HashMap.mem_insertIfNew.2 (.inr hmem)
      · exact hmem
    · rcases List.mem_cons.1 hmem with heq | hrest
      · obtain ⟨rfl, rfl⟩ := Prod.mk.inj heq
        left
        simp only [Constant.key?_eq_some_iff.2 rfl]
        exact Std.HashMap.mem_insertIfNew.2 (.inl (by simp))
      · exact .inr ⟨k, hrest⟩

/-- The index of a row of slots leads to numbers of slots with the key asked for. A number has 16
bits, whatever the slot. -/
theorem exists_slot_of_indexOf {slots : Array Constant} {key : SearchKey} {i : UInt16}
    (h : (indexOf slots)[key]? = some i) :
    ∃ j : Nat, 0 < j ∧ j.toUInt16 = i ∧ slots[j]? = some (.ofKey key) := by
  rcases getElem?_noteAll h with hempty | ⟨j, hmem, hj⟩
  · simp at hempty
  · obtain ⟨hpos, hslot⟩ := mem_drop_zipIdx.1 hmem
    exact ⟨j, hpos, hj, hslot⟩

/-- The index of a row of slots leads to entries with the key asked for. -/
theorem getElem?_indexOf {slots : Array Constant} {key : SearchKey} {i : UInt16}
    (hsize : slots.size ≤ 65536) (h : (indexOf slots)[key]? = some i) :
    slots[i.toNat]? = some (.ofKey key) := by
  obtain ⟨j, -, rfl, hj⟩ := exists_slot_of_indexOf h
  have hlt : j < 65536 := Nat.lt_of_lt_of_le (Array.getElem?_eq_some_iff.1 hj).1 hsize
  rwa [toNat_toUInt16_of_lt hlt]

/-- The index of a row of slots knows exactly the entries that stand behind the first slot. -/
theorem mem_indexOf_iff {slots : Array Constant} {key : SearchKey} :
    key ∈ indexOf slots ↔ ∃ i : Nat, 0 < i ∧ slots[i]? = some (.ofKey key) := by
  constructor
  · intro hmem
    obtain ⟨j, hpos, -, hj⟩ := exists_slot_of_indexOf (Std.HashMap.getElem?_eq_some_getElem hmem)
    exact ⟨j, hpos, hj⟩
  · rintro ⟨i, hpos, hi⟩
    exact mem_noteAll (.inr ⟨i, mem_drop_zipIdx.2 ⟨hpos, hi⟩⟩)

/-- The index of a row of slots misses no entry that can be searched for. -/
theorem mem_indexOf {slots : Array Constant} {key : SearchKey} {i : Nat}
    (hfirst : slots[0]? = some .unusable) (h : slots[i]? = some (.ofKey key)) :
    key ∈ indexOf slots := by
  refine mem_indexOf_iff.2 ⟨i, Nat.pos_of_ne_zero fun hi => ?_, h⟩
  subst hi
  cases key <;> simp [hfirst, Constant.ofKey] at h

/-! ### The index after one change -/

variable {p q : Pool} {c : Constant} {i : UInt16} {key : SearchKey}

/-- An index that notes the entry of a slot leads there, or where it led before. -/
theorem getElem?_of_noteKey {before : Option (Std.HashMap SearchKey UInt16)} {j : UInt16}
    {index : Std.HashMap SearchKey UInt16} (hindex : index ∈ noteKey before c j)
    -- Only the key of the entry that was just written can be new, and it does not replace an older
    -- number.
    (hi : index[key]? = some i) :
    (c = .ofKey key ∧ j = i) ∨ ∃ old ∈ before, old[key]? = some i := by
  cases hkey : c.key? with
  | none =>
    simp only [noteKey, hkey] at hindex
    exact .inr ⟨index, hindex, hi⟩
  | some newKey =>
    simp only [noteKey, hkey, Option.mem_def, Option.map_eq_some_iff] at hindex
    obtain ⟨old, hold, rfl⟩ := hindex
    rw [Std.HashMap.getElem?_insertIfNew] at hi
    split at hi
    · next heq =>
      obtain rfl : newKey = key := by simpa using heq.1
      exact .inl ⟨Constant.key?_eq_some_iff.1 hkey, Option.some.inj hi⟩
    · exact .inr ⟨old, hold, hi⟩

/-- An index that forgets the entry of a slot leads where it led before, but not from the key of
that entry to that slot. -/
theorem getElem?_of_forgetKey {before : Option (Std.HashMap SearchKey UInt16)} {j : UInt16}
    {index : Std.HashMap SearchKey UInt16} (hindex : index ∈ forgetKey before c j)
    (hi : index[key]? = some i) :
    (∃ old ∈ before, old[key]? = some i) ∧ (c = .ofKey key → i ≠ j) := by
  cases hkey : c.key? with
  | none =>
    simp only [forgetKey, hkey] at hindex
    refine ⟨⟨index, hindex, hi⟩, fun heq => ?_⟩
    rw [Constant.key?_eq_some_iff.2 heq] at hkey
    cases hkey
  | some oldKey =>
    simp only [forgetKey, hkey, Option.mem_def, Option.map_eq_some_iff] at hindex
    obtain ⟨old, hold, rfl⟩ := hindex
    -- The key that was forgotten is that of the old entry, and only that slot loses it.
    have hsame (heq : c = .ofKey key) : oldKey = key := by
      rw [Constant.key?_eq_some_iff.2 heq] at hkey
      exact (Option.some.inj hkey).symm
    split at hi
    · rw [Std.HashMap.getElem?_erase] at hi
      split at hi
      · cases hi
      · next hne => exact ⟨⟨old, hold, hi⟩, fun heq => absurd (by simp [hsame heq]) hne⟩
    · next hne =>
      refine ⟨⟨old, hold, hi⟩, fun heq hij => hne ?_⟩
      rw [hsame heq, hi, hij]

/-- Noting an entry adds its key and no other. -/
theorem mem_of_noteKey_iff {before index : Std.HashMap SearchKey UInt16}
    (hindex : index ∈ noteKey (some before) c i) : key ∈ index ↔ c = .ofKey key ∨ key ∈ before := by
  rw [← Constant.key?_eq_some_iff]
  cases hkey : c.key? with
  | none =>
    simp only [noteKey, hkey] at hindex
    obtain rfl := Option.some.inj hindex
    simp
  | some newKey =>
    simp only [noteKey, hkey, Option.map_some] at hindex
    obtain rfl := Option.some.inj hindex
    simp [Std.HashMap.mem_insertIfNew]

/-! ### Appending an entry -/

/-- An entry is appended when it leaves the pool with 65535 slots at most. -/
theorem push_eq (c : Constant) (p : Pool) : push c p =
    if p.size + c.filling.length ≤ 65535 then
      .ok p.size.toUInt16
        { slots := p.slots ++ c.filling.toArray, index := noteKey p.index c p.size.toUInt16 }
    else .error .poolOverflow p := by
  obtain ⟨slots, index⟩ := p
  cases hwide : c.isWide with
  | false =>
    simp only [push, size, Constant.filling, hwide, Bool.false_eq_true, if_false,
      List.length_singleton, ← Nat.not_lt, ite_not, Array.push_eq_append]
  | true =>
    simp only [push, size, Constant.filling, hwide, if_true, List.length_cons, List.length_nil,
      ← Nat.not_lt, ite_not, Array.push_eq_append, Array.append_assoc]
    rfl

/-- A push succeeds where there is room, and gives the number of the first slot it fills. -/
theorem push_eq_ok : push c p = .ok i q ↔
    p.size + c.filling.length ≤ 65535 ∧ i = p.size.toUInt16 ∧
      q = { slots := p.slots ++ c.filling.toArray, index := noteKey p.index c p.size.toUInt16 } := by
  rw [push_eq]
  split
  · next hroom =>
    rw [EStateM.Result.ok.injEq, eq_comm (a := i), eq_comm (a := q)]
    exact ⟨fun h => ⟨hroom, h⟩, fun h => h.2⟩
  · next hfull =>
    simp [hfull]

/-! ### One search -/

/-- A pool with its index built. -/
def withIndex (p : Pool) : Pool :=
  { p with index := some (p.index.getD (indexOf p.slots)) }

@[simp]
theorem slots_withIndex (p : Pool) : p.withIndex.slots = p.slots := rfl

/-- Building the index of a pool whose slots have indices makes it lead to entries with their
keys. -/
theorem Sound.withIndex {p : Pool} (h : p.Sound) (hsize : p.size ≤ 65536) : p.withIndex.Sound := by
  intro index hindex key i hi
  obtain rfl := Option.some.inj hindex
  cases hp : p.index with
  | none =>
    rw [hp] at hi
    exact getElem?_indexOf hsize hi
  | some index =>
    rw [hp] at hi
    exact h index hp key i hi

/-- Every slot has an index of 16 bits, and a search leads to what it asks for. -/
structure Searchable (p : Pool) : Prop where
  size_le : p.size ≤ 65536
  sound : p.Sound

/-- Building the index is no change that an entry shows. -/
theorem Coherent.withIndex {p : Pool} (h : p.Coherent) : p.withIndex.Coherent where
  size_le := h.size_le
  first := h.first
  sound := Sound.withIndex h.sound h.size_le
  complete := by
    intro index hindex key i hname hi
    obtain rfl := Option.some.inj hindex
    cases hp : p.index with
    | none => exact mem_indexOf h.first hi
    | some index => exact h.complete index hp key i hname hi

/-- A search looks into the index, which it builds if need be, and pushes what it does not find. -/
theorem intern_eq (key : SearchKey) (c : Constant) (p : Pool) :
    intern key c p = match (p.index.getD (indexOf p.slots))[key]? with
      | some i => .ok i p.withIndex
      | none => push c p.withIndex := by
  obtain ⟨slots, index⟩ := p
  cases index <;> rfl

/-- A search finds an entry, or appends one that is not there. -/
theorem intern_ok {key : SearchKey} {c : Constant} {p q : Pool} {i : UInt16}
    (h : intern key c p = .ok i q) :
    ∃ index ∈ p.withIndex.index, (index[key]? = some i ∧ q = p.withIndex) ∨
      (key ∉ index ∧ push c p.withIndex = .ok i q) := by
  refine ⟨_, rfl, ?_⟩
  rw [intern_eq] at h
  split at h
  · next j hj =>
    obtain ⟨rfl, rfl⟩ := EStateM.Result.ok.inj h
    exact .inl ⟨hj, rfl⟩
  · next hnone =>
    -- A key that is in the index was found there, so no entry would have been appended.
    refine .inr ⟨fun hmem => ?_, h⟩
    rw [Std.HashMap.getElem?_eq_some_getElem hmem] at hnone
    cases hnone

/-- Appending a name puts it behind all entries. -/
theorem push_ok (hc : c.isName) (h : push c p = .ok i q) :
    p.size < 65535 ∧ i = p.size.toUInt16 ∧
      q = { slots := p.slots.push c, index := noteKey p.index c i } := by
  obtain ⟨hroom, rfl, rfl⟩ := push_eq_ok.1 h
  have hfilling : c.filling = [c] := if_neg (Bool.eq_false_iff.1 (c.isWide_eq_false_of_isName hc))
  rw [hfilling] at hroom ⊢
  exact ⟨hroom, rfl, by rw [Array.push_eq_append]⟩

/-- A search that finds an entry leaves the slots alone. -/
theorem intern_of_found {key : SearchKey} {c : Constant} {p : Pool} {i : UInt16}
    (hfound : (p.index.getD (indexOf p.slots))[key]? = some i) :
    intern key c p = .ok i p.withIndex := by
  rw [intern_eq, hfound]

/-- A search for a name that the index does not know appends it. -/
theorem intern_of_new {key : SearchKey} (hname : (Constant.ofKey key).isName) {p : Pool}
    (hnew : (p.index.getD (indexOf p.slots))[key]? = none) (hsize : p.size < 65535) :
    intern key (.ofKey key) p = .ok p.size.toUInt16
      { slots := p.slots.push (.ofKey key)
        index := noteKey p.withIndex.index (.ofKey key) p.size.toUInt16 } := by
  have hroom : ¬ 65535 < p.withIndex.slots.size + 1 := Nat.not_lt.2 hsize
  rw [intern_eq, hnew]
  simp only [push, Constant.isWide_eq_false_of_isName hname, Bool.false_eq_true, if_false,
    if_neg hroom]
  rfl

/-- A search for a name only fails for want of room. -/
theorem exists_intern {key : SearchKey} (hname : (Constant.ofKey key).isName) {p : Pool}
    (hsize : p.size < 65535) : ∃ i q, intern key (.ofKey key) p = .ok i q := by
  cases hfound : (p.index.getD (indexOf p.slots))[key]? with
  | some i => exact ⟨i, _, intern_of_found hfound⟩
  | none => exact ⟨_, _, intern_of_new hname hfound hsize⟩

/-- What a pushed entry adds stands in the last slot. -/
theorem getElem?_slots_push {slots : Array Constant} {c d : Constant} {i : Nat} :
    (slots.push c)[i]? = some d ↔ slots[i]? = some d ∨ (i = slots.size ∧ c = d) := by
  rw [Array.getElem?_push]
  split
  · next heq => simp [heq]
  · next hne => simp [hne]

/-- The index that notes the entry of a new slot leads to entries with the key asked for. -/
theorem Sound.push (hp : p.Sound) (h : Pool.push c p = .ok i q) :
    q.Sound ∧ q.get? i = some c := by
  obtain ⟨hroom, rfl, rfl⟩ := push_eq_ok.1 h
  have hwidth := Constant.length_filling c
  have hi : p.size.toUInt16.toNat = p.size :=
    toNat_toUInt16_of_lt (by split at hwidth <;> omega)
  have hnew : (p.slots ++ c.filling.toArray)[p.size.toUInt16.toNat]? = some c := by
    rw [hi]
    exact Constant.getElem?_append_filling p.slots c
  refine ⟨fun index hindex key j hj => ?_, hnew⟩
  -- The one new key leads to the new slot.
  rcases getElem?_of_noteKey hindex hj with ⟨rfl, rfl⟩ | ⟨before, hbefore, hj'⟩
  · exact hnew
  · have hget := hp before hbefore key j hj'
    exact (Array.getElem?_append_left (lt_size_of_getElem? hget)).trans hget

/-- A search gives the slot of what was searched for. -/
theorem Sound.intern {key : SearchKey} {p q : Pool} {i : UInt16} (hp : p.Sound)
    (hsize : p.size ≤ 65536) (h : Pool.intern key (.ofKey key) p = .ok i q) :
    q.Sound ∧ q.get? i = some (.ofKey key) := by
  have hindexed := hp.withIndex hsize
  obtain ⟨index, hindex, ⟨hi, rfl⟩ | ⟨-, hpush⟩⟩ := intern_ok h
  · exact ⟨hindexed, hindexed index hindex key i hi⟩
  · exact hindexed.push hpush

/-- Appending a name that the index does not know keeps a pool coherent. -/
theorem Coherent.push {key : SearchKey} (hname : (Constant.ofKey key).isName) {p q : Pool}
    {i : UInt16} (hp : p.Coherent) {index : Std.HashMap SearchKey UInt16}
    (hindex : p.index = some index) (hkey : key ∉ index)
    (h : Pool.push (.ofKey key) p = .ok i q) :
    q.Coherent ∧ p.Extends q ∧ q.get? i = some (.ofKey key) := by
  obtain ⟨hsound, hget⟩ := Sound.push hp.sound h
  obtain ⟨hsize, rfl, rfl⟩ := push_ok hname h
  have hnoted : noteKey p.index (.ofKey key) p.size.toUInt16 =
      some (index.insertIfNew key p.size.toUInt16) := by
    simp [noteKey, Constant.key?_eq_some_iff.2 rfl, hindex]
  -- No slot held the entry before: the index would have known it.
  have hfresh : ∀ j : Nat, p.slots[j]? ≠ some (.ofKey key) := fun j hj =>
    hkey (hp.complete index hindex key j hname hj)
  refine ⟨⟨?_, ?_, hsound, ?_⟩, ⟨?_, ?_⟩, hget⟩
  -- The number of slots: there was room for one more.
  · simp only [size, Array.size_push] at hsize ⊢
    omega
  · exact getElem?_slots_push.2 (.inl hp.first)
  -- Complete: the one new slot is noted.
  · intro index' hindex' key' j hname' hj
    rw [hnoted] at hindex'
    obtain rfl := Option.some.inj hindex'
    rcases getElem?_slots_push.1 hj with hold | ⟨-, heq⟩
    · exact Std.HashMap.mem_insertIfNew.2 (.inr (hp.complete index hindex key' j hname' hold))
    · have hkeys : key' = key := by
        have := Constant.key?_eq_some_iff.2 heq
        rw [Constant.key?_eq_some_iff.2 rfl] at this
        exact (Option.some.inj this).symm
      exact Std.HashMap.mem_insertIfNew.2 (.inl (by simp [hkeys]))
  · exact fun j c hc => getElem?_slots_push.2 (.inl hc)
  -- The new slot holds a name, and no other slot holds the same.
  · intro j c hj hc
    rcases getElem?_slots_push.1 hc with hold | ⟨rfl, rfl⟩
    · exact absurd (lt_size_of_getElem? hold) (Nat.not_lt.2 hj)
    · refine ⟨hname, fun k hk => ?_⟩
      rcases getElem?_slots_push.1 hk with hold | ⟨rfl, -⟩
      · exact absurd hold (hfresh k)
      · rfl

/-- A search for a name keeps a pool coherent, extends it, and gives the slot of the name. -/
theorem Coherent.intern {key : SearchKey} (hname : (Constant.ofKey key).isName) {p q : Pool}
    {i : UInt16} (hp : p.Coherent) (h : Pool.intern key (.ofKey key) p = .ok i q) :
    q.Coherent ∧ p.Extends q ∧ q.get? i = some (.ofKey key) := by
  -- Found, the slots are as before; appended, they are so but for the last.
  obtain ⟨index, hindex, ⟨hi, rfl⟩ | ⟨hkey, hpush⟩⟩ := intern_ok h
  · exact ⟨hp.withIndex, ⟨Extends.refl p |>.old, Extends.refl p |>.new⟩,
      hp.withIndex.sound index hindex key i hi⟩
  · obtain ⟨hq, hext, hget⟩ := hp.withIndex.push hname hindex hkey hpush
    exact ⟨hq, ⟨hext.old, hext.new⟩, hget⟩

/-! ### Runs of searches -/

/-- One successful search for a name. -/
def InternStep (p q : Pool) : Prop :=
  ∃ key i, (Constant.ofKey key).isName ∧ intern key (.ofKey key) p = .ok i q

/-- Any number of successful searches for names. -/
def Interns : Pool → Pool → Prop :=
  Relation.ReflTransGen InternStep

/-- A search keeps a pool coherent and extends it. -/
theorem Coherent.of_internStep {p q : Pool} (hp : p.Coherent) (h : InternStep p q) :
    q.Coherent ∧ p.Extends q := by
  obtain ⟨key, i, hname, hrun⟩ := h
  obtain ⟨hq, hext, -⟩ := hp.intern hname hrun
  exact ⟨hq, hext⟩

/-- A search makes no pool shorter. -/
theorem InternStep.size_le {p q : Pool} (h : InternStep p q) : p.size ≤ q.size := by
  obtain ⟨key, i, hname, hrun⟩ := h
  obtain ⟨index, -, ⟨-, rfl⟩ | ⟨-, hpush⟩⟩ := intern_ok hrun
  · exact Nat.le_refl _
  · obtain ⟨-, -, rfl⟩ := push_ok hname hpush
    simp [size]

namespace Interns

theorem refl (p : Pool) : p.Interns p :=
  Relation.ReflTransGen.refl

theorem trans {p q r : Pool} (h : p.Interns q) (h' : q.Interns r) : p.Interns r :=
  Relation.ReflTransGen.trans h h'

/-- Searches keep a pool coherent and extend it. -/
theorem coherent {p q : Pool} (h : p.Interns q) (hp : p.Coherent) : q.Coherent ∧ p.Extends q := by
  induction h with
  | refl => exact ⟨hp, Extends.refl p⟩
  | tail _ hstep ih =>
    obtain ⟨hcoherent, hext⟩ := ih
    obtain ⟨hcoherent', hext'⟩ := hcoherent.of_internStep hstep
    exact ⟨hcoherent', hext.trans hext'⟩

/-- Searches never shorten a pool, coherent or not. -/
theorem size_le {p q : Pool} (h : p.Interns q) : p.size ≤ q.size := by
  induction h with
  | refl => exact Nat.le_refl _
  | tail _ hstep ih => exact Nat.le_trans ih hstep.size_le

end Interns

/-- A change to a pool that is nothing but searches for names. -/
def OnlyInterns {α : Type} (act : PoolM α) : Prop :=
  ∀ p a q, act p = .ok a q → p.Interns q

namespace OnlyInterns

variable {α β : Type}

theorem pure (a : α) : OnlyInterns (Pure.pure a : PoolM α) := by
  intro p b q h
  obtain ⟨-, rfl⟩ := EStateM.pure_eq_ok.1 h
  exact Interns.refl p

theorem throw (e : FormatError) : OnlyInterns (MonadExcept.throw e : PoolM α) :=
  fun _ _ _ h => (EStateM.throw_eq_ok.1 h).elim

/-- A check makes no search. -/
theorem ofExcept (x : Except FormatError α) : OnlyInterns (MonadExcept.ofExcept x : PoolM α) := by
  intro p b q h
  obtain ⟨-, rfl⟩ := EStateM.ofExcept_eq_ok.1 h
  exact Interns.refl p

/-- Changes that only search do so one after the other. -/
theorem bind {act : PoolM α} {next : α → PoolM β} (h : OnlyInterns act)
    (h' : ∀ a, OnlyInterns (next a)) : OnlyInterns (act >>= next) := by
  intro p b r hrun
  obtain ⟨a, q, hact, hnext⟩ := EStateM.bind_eq_ok.1 hrun
  exact (h p a q hact).trans (h' a q b r hnext)

/-- What such a change gives may be changed on the way. -/
theorem map {act : PoolM α} (f : α → β) (h : OnlyInterns act) : OnlyInterns (f <$> act) := by
  intro p b q hrun
  obtain ⟨a, hact, -⟩ := EStateM.map_eq_ok.1 hrun
  exact h p a q hact

/-- Searching for a name is one search. -/
theorem intern {key : SearchKey} (hname : (Constant.ofKey key).isName) :
    OnlyInterns (Pool.intern key (.ofKey key)) :=
  fun _ i _ h => Relation.ReflTransGen.single ⟨key, i, hname, h⟩

/-- So is searching for a text. -/
theorem internText (text : String) : OnlyInterns (Pool.internText text) :=
  @intern (.utf8 text) rfl

/-- A name and type takes three searches: two for its texts, and one for itself. -/
theorem internNameAndType (name desc : String) :
    OnlyInterns (Pool.internNameAndType name desc) := by
  unfold Pool.internNameAndType
  refine bind (internText name) fun i => bind (internText desc) fun j => ?_
  exact @intern (.nameAndType i j) rfl

/-- A list of changes that only search makes searches only. -/
theorem listMapM {act : α → PoolM β} {values : List α} (h : ∀ a ∈ values, OnlyInterns (act a)) :
    OnlyInterns (values.mapM act) := by
  induction values with
  | nil => exact pure []
  | cons a rest ih =>
    rw [List.mapM_cons]
    refine bind (h a List.mem_cons_self) fun b => bind ?_ fun bs => pure _
    exact ih fun a' ha' => h a' (List.mem_cons_of_mem _ ha')

/-- So does an array of them. -/
theorem arrayMapM {act : α → PoolM β} {values : Array α} (h : ∀ a, OnlyInterns (act a)) :
    OnlyInterns (values.mapM act) := by
  rw [Array.mapM_eq_mapM_toList]
  exact map _ (listMapM fun a _ => h a)

end OnlyInterns

end Pool

end Relabel
