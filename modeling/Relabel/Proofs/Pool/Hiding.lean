import Mathlib.Data.List.Induction
import Relabel.Proofs.Pool.Calls

/-!
# Entries hidden from a search

An index that is built anew knows every entry behind the first slot. One that is kept in step does
as well, as long as no entry is *hidden*: when the slot that the index leads to is given another
entry, the index forgets the key, and an equal entry in another slot is not found any more. The next
search appends it once again.

## Main results

- `Pool.finds_iff`: what a search finds.
- `Pool.Knows.of_grows`, `Pool.knows_set_iff`: only a replacement can hide an entry, and when.
- `Pool.finds_of_calls_iff`: searches find all that a pool holds iff no call hides an entry.
-/

namespace Relabel.Pool

variable {p q : Pool} {c old new : Constant} {i : UInt16} {key : SearchKey}

/-! ### Finding and knowing -/

/-- The entry with this key stands behind the first slot. -/
def Holds (p : Pool) (key : SearchKey) : Prop :=
  ∃ i : Nat, 0 < i ∧ p.slots[i]? = some (.ofKey key)

/-- A search for the key gives a slot behind the first that holds its entry, and leaves all slots
alone. -/
def Finds (p : Pool) (key : SearchKey) : Prop :=
  ∃ (i : UInt16) (q : Pool), intern key (.ofKey key) p = .ok i q ∧ q.slots = p.slots ∧ i ≠ 0 ∧
    p.get? i = some (.ofKey key)

/-- The index, once it is built, does not miss the key. -/
def Knows (p : Pool) (key : SearchKey) : Prop :=
  p.Holds key → ∀ index ∈ p.index, key ∈ index

/-- A pool is searched in for what an index built anew would know. -/
theorem holds_iff_mem_indexOf : p.Holds key ↔ key ∈ indexOf p.slots :=
  mem_indexOf_iff.symm

/-- A pool that can be searched, and whose first slot is never used. -/
structure Orderly (p : Pool) : Prop extends p.Searchable where
  first : p.slots[0]? = some .unusable

theorem Orderly.ne_zero (hp : p.Orderly) (hget : p.get? i = some (.ofKey key)) : i ≠ 0 := by
  rintro rfl
  have hfree := hget.symm.trans hp.first
  cases key <;> cases hfree

/-- A search finds what the pool holds, if an index that was built before knows it. -/
theorem finds_iff (hp : p.Orderly) :
    p.Finds key ↔ p.Holds key ∧ ∀ index ∈ p.index, key ∈ index := by
  constructor
  · rintro ⟨i, q, hrun, hslots, hne, hget⟩
    have hpos : 0 < i.toNat := Nat.pos_of_ne_zero fun h => hne (UInt16.toNat_inj.1 h)
    refine ⟨⟨i.toNat, hpos, hget⟩, fun index hindex => ?_⟩
    obtain ⟨index', hindex', ⟨hi, -⟩ | ⟨-, hpush⟩⟩ := intern_ok hrun
    · obtain rfl : index' = index := by simpa [withIndex, show p.index = some index from hindex,
        eq_comm] using hindex'
      rw [Std.HashMap.mem_iff_isSome_getElem?, hi]
      rfl
    -- What appends an entry does not leave the slots alone.
    · have hlt := size_lt_of_push hpush
      rw [size, size, hslots] at hlt
      exact absurd hlt (Nat.lt_irrefl _)
  · rintro ⟨hholds, hknows⟩
    have hmem : key ∈ p.index.getD (indexOf p.slots) := by
      cases hindex : p.index with
      | none => exact holds_iff_mem_indexOf.1 hholds
      | some index => exact hknows index hindex
    have hfound := Std.HashMap.getElem?_eq_some_getElem hmem
    have hget := (hp.sound.withIndex hp.size_le) _ rfl key _ hfound
    exact ⟨_, _, intern_of_found hfound, rfl, hp.ne_zero hget, hget⟩

/-- A pool knows a key exactly where a search finds what the pool holds. -/
theorem knows_iff (hp : p.Orderly) : p.Knows key ↔ (p.Finds key ↔ p.Holds key) := by
  rw [finds_iff hp, and_iff_left_iff_imp]
  rfl

/-! ### Growth hides nothing -/

/-- A key stays known while the pool grows by a step. -/
theorem Knows.of_growthStep (h : GrowthStep p q) (hp : p.Knows key) : q.Knows key := by
  cases h with
  | build =>
    intro hholds index hindex
    obtain rfl := Option.some.inj hindex
    cases hbefore : p.index with
    | none => exact holds_iff_mem_indexOf.1 hholds
    | some index => exact hp hholds index hbefore
  | append h =>
    obtain ⟨-, -, rfl⟩ := push_eq_ok.1 h
    rintro ⟨j, hpos, hj⟩ index hindex
    cases hbefore : p.index with
    | none =>
      rw [hbefore] at hindex
      unfold noteKey at hindex
      split at hindex <;> cases hindex
    | some before =>
      rw [hbefore] at hindex
      refine (mem_of_noteKey_iff hindex).2 ?_
      by_cases hlt : j < p.slots.size
      · rw [Array.getElem?_append_left hlt] at hj
        exact .inr (hp ⟨j, hpos, hj⟩ before hbefore)
      -- Behind the old slots stands the new entry, and a free slot if it is wide.
      · rw [Array.getElem?_append_right (Nat.le_of_not_lt hlt), List.getElem?_toArray] at hj
        rcases Constant.mem_filling (List.mem_of_getElem? hj) with heq | hfree
        · exact .inl heq.symm
        · cases key <;> cases hfree

/-- A key stays known while the pool grows. -/
theorem Knows.of_grows (h : p.Grows q) (hp : p.Knows key) : q.Knows key :=
  h.preserves (P := fun r => r.Knows key) (fun _ _ => Knows.of_growthStep) hp

/-! ### Replacing the entry that was found -/

/-- The call gives the slot that the key leads to another entry, although its entry stands in
another slot as well. -/
def Call.Hides (key : SearchKey) (p : Pool) : Call → Prop
  | .set i new => new ≠ .ofKey key ∧ (∃ index ∈ p.index, index[key]? = some i) ∧
      ∃ j : Nat, 0 < j ∧ j ≠ i.toNat ∧ p.slots[j]? = some (.ofKey key)
  | _ => False

/-- Forgetting the entry of a slot takes the key from the index that led to that slot. -/
theorem mem_of_forgetKey_iff (hp : p.Sound) (hold : p.get? i = some old)
    {before index : Std.HashMap SearchKey UInt16} (hbefore : p.index = some before)
    (hindex : index ∈ forgetKey (some before) old i) :
    key ∈ index ↔ key ∈ before ∧ before[key]? ≠ some i := by
  constructor
  · intro hmem
    obtain ⟨⟨before', hbefore', hj⟩, hne⟩ :=
      getElem?_of_forgetKey hindex (Std.HashMap.getElem?_eq_some_getElem hmem)
    obtain rfl := Option.some.inj hbefore'
    -- Had the key led to this slot, the old entry would carry it, and its note is the one that was
    -- erased.
    refine ⟨by rw [Std.HashMap.mem_iff_isSome_getElem?, hj]; rfl, fun hi => ?_⟩
    have heq := Option.some.inj (hold.symm.trans (hp before hbefore key i hi))
    exact hne heq (Option.some.inj (hj.symm.trans hi))
  · rintro ⟨hmem, hne⟩
    cases hkey : old.key? with
    | none =>
      simp only [forgetKey, hkey] at hindex
      exact Option.some.inj hindex ▸ hmem
    | some oldKey =>
      simp only [forgetKey, hkey, Option.map_some] at hindex
      obtain rfl := Option.some.inj hindex
      split
      · next hled =>
        refine Std.HashMap.mem_erase.2 ⟨beq_false_of_ne fun heq => hne ?_, hmem⟩
        rw [← heq, hled]
      · exact hmem

/-- Replacing an entry replaces what the pool holds in one slot. -/
theorem holds_set_iff (hi : i ≠ 0) (hold : p.get? i = some old) :
    (p.set i new).Holds key ↔ new = .ofKey key ∨
      ∃ j : Nat, 0 < j ∧ j ≠ i.toNat ∧ p.slots[j]? = some (.ofKey key) := by
  constructor
  · rintro ⟨j, hj, hslot⟩
    rw [getElem?_set hold] at hslot
    split at hslot
    · exact .inl (Option.some.inj hslot)
    · next hne => exact .inr ⟨j, hj, fun h => hne h.symm, hslot⟩
  · rintro (rfl | ⟨j, hj, hne, hslot⟩)
    · have hpos : 0 < i.toNat := Nat.pos_of_ne_zero fun h => hi (UInt16.toNat_inj.1 h)
      exact ⟨i.toNat, hpos, by rw [getElem?_set hold, if_pos rfl]⟩
    · exact ⟨j, hj, by rw [getElem?_set hold, if_neg fun h => hne h.symm, hslot]⟩

/-- Replacing an entry builds no index. -/
theorem index_set_eq_none_iff (hold : p.get? i = some old) (new : Constant) :
    (p.set i new).index = none ↔ p.index = none := by
  rw [set_eq hold]
  unfold forgetKey noteKey
  split <;> split <;> simp

/-- After a replacement the index knows the new entry, and of what it knew before all but what led
to the slot replaced. -/
theorem mem_index_set_iff (hp : p.Sound) (hold : p.get? i = some old)
    {before index : Std.HashMap SearchKey UInt16} (hbefore : p.index = some before)
    (hindex : index ∈ (p.set i new).index) :
    key ∈ index ↔ new = .ofKey key ∨ key ∈ before ∧ before[key]? ≠ some i := by
  rw [set_eq hold, hbefore] at hindex
  cases hbetween : forgetKey (some before) old i with
  | none =>
    rw [hbetween] at hindex
    unfold noteKey at hindex
    split at hindex <;> cases hindex
  | some between =>
    rw [hbetween] at hindex
    rw [mem_of_noteKey_iff hindex, mem_of_forgetKey_iff hp hold hbefore hbetween]

/-- After a replacement the index misses the key iff the replacement hides it. -/
theorem knows_set_iff (hp : p.Orderly) (hi : i ≠ 0) (hold : p.get? i = some old)
    (hknows : p.Knows key) : (p.set i new).Knows key ↔ ¬ (Call.set i new).Hides key p := by
  have hsound := hp.sound
  constructor
  · rintro h ⟨hnew, ⟨before, hbefore, hled⟩, helsewhere⟩
    obtain ⟨index, hindex⟩ := Option.ne_none_iff_exists'.1
      (mt (index_set_eq_none_iff hold new).1 (by simp [show p.index = _ from hbefore]))
    -- The index of before led to another slot, so the note of that slot is still there.
    have hin := h ((holds_set_iff hi hold).2 (.inr helsewhere)) index hindex
    rcases (mem_index_set_iff hsound hold hbefore hindex).1 hin with heq | ⟨-, hne⟩
    · exact hnew heq
    · exact hne hled
  · intro hhides hholds index hindex
    cases hbefore : p.index with
    | none =>
      rw [(index_set_eq_none_iff hold new).2 hbefore] at hindex
      cases hindex
    | some before =>
      refine (mem_index_set_iff hsound hold hbefore hindex).2
        (or_iff_not_imp_left.2 fun hnew => ?_)
      have helsewhere := ((holds_set_iff hi hold).1 hholds).resolve_left hnew
      have ⟨j, hj, _, hslot⟩ := helsewhere
      exact ⟨hknows ⟨j, hj, hslot⟩ before hbefore,
        fun hled => hhides ⟨hnew, ⟨before, hbefore, hled⟩, helsewhere⟩⟩

/-! ### Runs of calls -/

/-- A call hides an entry or leaves the index knowing it. -/
theorem knows_after_iff (hp : p.Orderly) {call : Call} (hcall : ¬ call.Replaces 0)
    (hknows : p.Knows key) : (call.after p).Knows key ↔ ¬ call.Hides key p := by
  rcases call.after_cases p with hgrow | ⟨i, old, new, rfl, hold, hafter⟩
  · refine iff_of_true (hknows.of_grows hgrow) fun hhides => ?_
    cases call with
    | set i new =>
      -- The index leads to a slot that the pool has, so the call replaces its entry.
      obtain ⟨hnew, ⟨index, hindex, hled⟩, -⟩ := hhides
      have hget := hp.sound index hindex key i hled
      have hslot := hgrow.old hget
      have hset : (p.set i new).slots[i.toNat]? = some new := by
        rw [getElem?_set hget, if_pos rfl]
      exact hnew (Option.some.inj (hset.symm.trans hslot))
    | _ => exact hhides
  · have hi : i ≠ 0 := fun h => hcall (by simp [Call.Replaces, h])
    rw [hafter]
    exact knows_set_iff hp hi hold hknows

/-- A fresh pool stays orderly under calls that leave slot zero. -/
theorem Fresh.orderly (hp : p.Fresh) (hsize : p.size ≤ 65536) {calls : List Call}
    (hcalls : ∀ call ∈ calls, ¬ call.Replaces 0) : (p.afterCalls calls).Orderly where
  toSearchable := hp.searchable hsize calls
  first := afterCalls_preserves (P := fun q => q.slots[0]? = some .unusable)
    (fun call hcall _ hfirst => Call.getElem?_after (c := .unusable) (hcalls call hcall) hfirst)
    hp.first

/-- After every part of a run of calls a search finds an entry exactly when the pool holds it
behind the first slot, iff no call of the run hides the entry. -/
theorem finds_of_calls_iff (hp : p.Fresh) (hsize : p.size ≤ 65536) {calls : List Call}
    (hcalls : ∀ call ∈ calls, ¬ call.Replaces 0) (key : SearchKey) :
    (∀ before, before <+: calls →
      ((p.afterCalls before).Finds key ↔ (p.afterCalls before).Holds key)) ↔
    ∀ before call, before ++ [call] <+: calls → ¬ call.Hides key (p.afterCalls before) := by
  have horderly {before} (h : before <+: calls) : (p.afterCalls before).Orderly :=
    hp.orderly hsize fun call hcall => hcalls call (h.subset hcall)
  have hstep {before call} (h : before ++ [call] <+: calls)
      (hknows : (p.afterCalls before).Knows key) :
      (p.afterCalls (before ++ [call])).Knows key ↔ ¬ call.Hides key (p.afterCalls before) := by
    rw [afterCalls_concat]
    exact knows_after_iff (horderly ((List.prefix_append ..).trans h))
      (hcalls call (h.subset (by simp))) hknows
  constructor
  · intro h before call hprefix
    have hknows {part} (hpart : part <+: calls) : (p.afterCalls part).Knows key :=
      (knows_iff (horderly hpart)).2 (h part hpart)
    exact (hstep hprefix (hknows ((List.prefix_append ..).trans hprefix))).1 (hknows hprefix)
  · intro h before hprefix
    refine (knows_iff (horderly hprefix)).1 ?_
    -- Call by call, from the fresh pool on, which has no index.
    induction before using List.reverseRecOn with
    | nil =>
      intro _ index hindex
      rw [afterCalls_nil, hp.index_eq_none] at hindex
      cases hindex
    | append_singleton before call ih =>
      exact (hstep hprefix (ih ((List.prefix_append ..).trans hprefix))).2 (h before call hprefix)

/-- Of two equal texts the one that is found is replaced, and the other is not found any more. -/
theorem finds_of_calls_iff_twins :
    Fresh {} ∧ ({} : Pool).size ≤ 65536 ∧ (∀ call ∈ twinCalls, ¬ call.Replaces 0) ∧
    ¬ ∀ before, before <+: twinCalls → ((({} : Pool).afterCalls before).Finds (.utf8 "a") ↔
      (({} : Pool).afterCalls before).Holds (.utf8 "a")) := by
  have hsize : ({} : Pool).size ≤ 65536 := by decide
  have hcalls : ∀ call ∈ twinCalls, ¬ call.Replaces 0 := by
    simp [twinCalls, Call.Replaces]
  refine ⟨.empty, hsize, hcalls, fun hall => ?_⟩
  -- The run is stopped right before the replacement, when the first of the two texts is the one
  -- found.
  refine (finds_of_calls_iff .empty hsize hcalls (.utf8 "a")).1 hall (twinCalls.take 4)
    (.set 2 (.utf8 "\ufffd")) (List.prefix_refl _) ?_
  rw [afterCalls_twinCalls_take]
  exact ⟨by simp [Constant.ofKey], ⟨_, rfl, getElem?_indexOf_twinSlots⟩, 3, by decide, by decide, rfl⟩

end Relabel.Pool
