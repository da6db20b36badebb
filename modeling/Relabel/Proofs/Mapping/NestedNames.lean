import Mathlib.Data.List.Induction
import Relabel.Mapping.Renames

/-!
# Names of nested classes

A nested class without a row of its own follows the class around it, however deep it lies. So a new
name always comes from some row: it is what the row gives, and the part behind the class of the row.

## Main results

- `Mapping.Renames.className_nested`: a nested class follows the class around it.
- `Mapping.Renames.exists_of_mapClass`: where a new name comes from.
-/

namespace Relabel

namespace Nested

variable {own : Own} {outer inner : String}

/-- The part behind the name of a class stays behind its new name. -/
theorem renameOuter_append (own : Own) (before after rest : List Char) :
    renameOuter own before (after ++ rest) =
      (renameOuter own before after).map (· ++ String.ofList rest) := by
  induction before generalizing after with
  | nil => rfl
  | cons c before ih =>
    simp only [renameOuter, ← List.cons_append, ih]
    split
    · split
      · next answer _ => cases answer <;> simp [String.ofList_append, String.append_assoc]
      · rfl
    · rfl

/-- Up to the last `$` there is no other class to ask for. -/
theorem renameOuter_of_not_mem (own : Own) {simple : List Char} (h : '$' ∉ simple)
    (before after : List Char) :
    renameOuter own (simple.reverse ++ before) after =
      renameOuter own before (simple ++ after) := by
  induction simple using List.reverseRecOn generalizing after with
  | nil => rfl
  | append_singleton simple c ih =>
    rw [List.mem_append, List.mem_singleton, not_or] at h
    rw [List.reverse_append, List.reverse_singleton, List.singleton_append, List.cons_append,
      renameOuter, if_neg (Ne.symm h.2), ih h.1, List.append_assoc, List.singleton_append]

/-- A nested class without an answer of its own follows the class around it. -/
theorem rename_nested (hinner : '$' ∉ inner.toList) (hown : own (outer ++ "$" ++ inner) = none) :
    rename own (outer ++ "$" ++ inner) = (rename own outer).map (· ++ "$" ++ inner) := by
  have hname : (outer ++ "$" ++ inner).toList.reverse =
      inner.toList.reverse ++ '$' :: outer.toList.reverse := by
    simp
  have hsuffix : String.ofList ('$' :: inner.toList) = "$" ++ inner := by
    rw [← String.toList_inj]
    simp
  have hbehind : (· ++ ("$" ++ inner)) = (· ++ "$" ++ inner) :=
    funext fun _ => String.append_assoc.symm
  rw [rename, hown, hname]
  show renameOuter own (inner.toList.reverse ++ '$' :: outer.toList.reverse) [] = _
  -- The search comes from behind, so the first `$` that it meets is the one in front of `inner`.
  rw [renameOuter_of_not_mem own hinner, List.append_nil, renameOuter, if_pos rfl,
    List.reverse_reverse, String.ofList_toList, hsuffix, hbehind, rename]
  cases own outer with
  | some answer => rfl
  | none =>
    have hrest := renameOuter_append own outer.toList.reverse [] ('$' :: inner.toList)
    rwa [List.nil_append, hsuffix, hbehind] at hrest

end Nested

namespace Mapping.Renames

variable {mappings : Renames} {name new outer inner : String}

/-- A class has a new name by a row for it or for one around it, and keeps what is behind that. -/
theorem exists_of_mapClass (h : mappings.mapClass name = some new) :
    ∃ outer inner given, name = outer ++ inner ∧ mappings.classes[outer]? = some given ∧
      given ≠ outer ∧ new = given ++ inner := by
  obtain ⟨outer, inner, answer, hname, hown, rfl⟩ := Nested.exists_of_rename h
  obtain ⟨given, hgiven, hanswer⟩ := Option.map_eq_some_iff.1 hown
  obtain ⟨hne, rfl⟩ : ¬ given = String.ofList outer ∧ given = answer := by
    simpa [Nested.answer] using hanswer
  refine ⟨.ofList outer, .ofList inner, given, ?_, hgiven, hne, rfl⟩
  rw [← String.ofList_append, ← hname, String.ofList_toList]

/-- A new name differs from the old one. -/
theorem ne_of_mapClass (h : mappings.mapClass name = some new) : new ≠ name := by
  obtain ⟨outer, inner, given, rfl, -, hne, rfl⟩ := exists_of_mapClass h
  intro heq
  -- The parts behind the two names are the same, so the parts in front are.
  rw [← String.toList_inj, String.toList_append, String.toList_append, List.append_left_inj,
    String.toList_inj] at heq
  exact hne heq

/-- A nested class without a row of its own is named after the class around it. -/
theorem className_nested (hinner : '$' ∉ inner.toList)
    (hrow : mappings.classes[outer ++ "$" ++ inner]? = none) :
    mappings.className (outer ++ "$" ++ inner) = mappings.className outer ++ "$" ++ inner := by
  have hmapClass : mappings.mapClass (outer ++ "$" ++ inner) =
      (mappings.mapClass outer).map (· ++ "$" ++ inner) :=
    Nested.rename_nested hinner (by rw [hrow, Option.map_none])
  rw [className, className, hmapClass]
  cases mappings.mapClass outer <;> rfl

end Mapping.Renames

end Relabel
