import Mathlib.Data.List.Nodup
import Std.Data.HashMap

/-!
# Maps made of lists

What a map holds that is made of a list of entries: for each key the last entry with that key.

## Main results

- `getElem?_ofList_eq_some_iff`: the last entry with a key counts.
- `getElem?_ofList_iff`: where keys differ, each entry does.
- `exists_last_of_filterMap`: the same for entries that are made of rows.
-/

namespace Relabel

variable {α β : Type} [BEq α] [LawfulBEq α] [Hashable α] {entries : List (α × β)} {k : α} {v : β}

/-- A map made of entries holds the last one with a key. -/
theorem getElem?_ofList_eq_some_iff :
    (Std.HashMap.ofList entries)[k]? = some v ↔
      ∃ before after, entries = before ++ (k, v) :: after ∧ ∀ e ∈ after, e.1 ≠ k := by
  have hget : (Std.HashMap.ofList entries)[k]? =
      entries.reverse.findSome? fun e => if e.1 == k then some e.2 else none := by
    rw [Std.HashMap.ofList_eq_insertMany_empty, Std.HashMap.getElem?_insertMany_list,
      Std.HashMap.getElem?_empty, Option.or_none, List.findSomeRev?_eq_findSome?_reverse]
  -- The last entry with the key is the first one from behind.
  rw [hget, List.findSome?_eq_some_iff]
  constructor
  · rintro ⟨after, ⟨k', v'⟩, before, hentries, hlast, hother⟩
    obtain ⟨hkey, hvalue⟩ := Option.ite_none_right_eq_some.1 hlast
    obtain rfl := eq_of_beq hkey
    obtain rfl := Option.some.inj hvalue
    refine ⟨before.reverse, after.reverse, ?_, fun e he heq => ?_⟩
    · rw [List.reverse_eq_append_iff] at hentries
      simpa using hentries
    · have hnone := hother e (List.mem_reverse.1 he)
      rw [heq, if_pos BEq.rfl] at hnone
      cases hnone
  · rintro ⟨before, after, rfl, hother⟩
    refine ⟨after.reverse, (k, v), before.reverse, by simp, if_pos BEq.rfl, fun e he => ?_⟩
    exact if_neg fun heq => hother e (List.mem_reverse.1 he) (eq_of_beq heq)

theorem mem_of_getElem?_ofList (h : (Std.HashMap.ofList entries)[k]? = some v) :
    (k, v) ∈ entries := by
  obtain ⟨before, after, rfl, -⟩ := getElem?_ofList_eq_some_iff.1 h
  exact List.mem_append_right _ List.mem_cons_self

/-- A map made of entries with different keys holds these entries and no others. -/
theorem getElem?_ofList_iff (hkeys : (entries.map Prod.fst).Nodup) :
    (Std.HashMap.ofList entries)[k]? = some v ↔ (k, v) ∈ entries := by
  refine ⟨mem_of_getElem?_ofList, fun hmem => ?_⟩
  obtain ⟨before, after, rfl⟩ := List.append_of_mem hmem
  rw [List.map_append, List.map_cons] at hkeys
  have hother := (List.nodup_cons.1 hkeys.of_append_right).1
  exact getElem?_ofList_eq_some_iff.2
    ⟨before, after, rfl, fun e he heq => hother (List.mem_map.2 ⟨e, he, heq⟩)⟩

/-- A map made of rows, of which some have an entry, holds the last row that has one for a key. -/
theorem exists_last_of_filterMap {ρ : Type} {entry : ρ → Option (α × β)} {rows : List ρ} {row : ρ}
    (hrow : row ∈ rows) (hentry : entry row = some (k, v)) :
    ∃ before last after new, rows = before ++ last :: after ∧ entry last = some (k, new) ∧
      (∀ later ∈ after, ∀ v', entry later ≠ some (k, v')) ∧
        (Std.HashMap.ofList (rows.filterMap entry))[k]? = some new := by
  have hmem : k ∈ Std.HashMap.ofList (rows.filterMap entry) := by
    rw [Std.HashMap.mem_ofList, List.contains_iff_mem]
    exact List.mem_map.2 ⟨(k, v), List.mem_filterMap.2 ⟨row, hrow, hentry⟩, rfl⟩
  obtain ⟨new, hnew⟩ := Option.isSome_iff_exists.1 (Std.HashMap.mem_iff_isSome_getElem?.1 hmem)
  obtain ⟨before, after, hentries, hother⟩ := getElem?_ofList_eq_some_iff.1 hnew
  obtain ⟨front, back, rfl, -, hback⟩ := List.filterMap_eq_append_iff.1 hentries
  obtain ⟨skipped, last, rest, rfl, -, hlast, rfl⟩ := List.filterMap_eq_cons_iff.1 hback
  refine ⟨front ++ skipped, last, rest, new, (List.append_assoc ..).symm, hlast, ?_, hnew⟩
  intro later hlater v' heq
  exact hother (k, v') (List.mem_filterMap.2 ⟨later, hlater, heq⟩) rfl

end Relabel
