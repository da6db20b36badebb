/-!
# Names of nested classes

A nested class is named after the class around it: `a$b` lies in `a`. A class without an answer of
its own follows the class around it, so `a$b$c` is asked for first, then `a$b`, then `a`, and what
the found class is not asked for stays behind its new name.
-/

namespace Relabel.Nested

/-- What is known of one class: `none` where nothing is, `some none` where it keeps its name, and
`some (some new)` where it is renamed. -/
abbrev Own := String → Option (Option String)

/-- Asks for the classes around a class. The first argument is the unread part of its name, last
character first, and the second the part behind it. -/
def renameOuter (own : Own) : List Char → List Char → Option String
  | [], _ => none
  | c :: before, after =>
    if c = '$' then
      match own (String.ofList before.reverse) with
      | some answer => answer.map fun new => new ++ String.ofList (c :: after)
      | none => renameOuter own before (c :: after)
    else renameOuter own before (c :: after)

/-- The new name of a class, by its own answer or that of the innermost class around it that has
one. -/
def rename (own : Own) (name : String) : Option String :=
  match own name with
  | some answer => answer
  | none => renameOuter own name.toList.reverse []

/-- A class with an answer of its own does not follow any other. -/
theorem rename_of_own {own : Own} {name : String} {answer : Option String}
    (h : own name = some answer) : rename own name = answer := by
  simp [rename, h]

private theorem exists_of_renameOuter {own : Own} {before after : List Char} {new : String}
    (h : renameOuter own before after = some new) :
    ∃ outer inner answer, before.reverse ++ after = outer ++ inner ∧
      own (String.ofList outer) = some (some answer) ∧ new = answer ++ String.ofList inner := by
  induction before generalizing after with
  | nil => cases h
  | cons c before ih =>
    have hunread : (c :: before).reverse ++ after = before.reverse ++ c :: after := by simp
    rw [renameOuter] at h
    split at h
    · split at h
      · next answer hown =>
        obtain ⟨answer, rfl, rfl⟩ := Option.map_eq_some_iff.1 h
        exact ⟨before.reverse, c :: after, answer, hunread, hown, rfl⟩
      · exact hunread ▸ ih h
    · exact hunread ▸ ih h

/-- A new name is the answer for the class or for one around it, and what is behind that. -/
theorem exists_of_rename {own : Own} {name new : String} (h : rename own name = some new) :
    ∃ outer inner answer, name.toList = outer ++ inner ∧
      own (String.ofList outer) = some (some answer) ∧ new = answer ++ String.ofList inner := by
  unfold rename at h
  split at h
  · next answer hown =>
    subst h
    exact ⟨name.toList, [], new, by simp, by simpa using hown, by simp⟩
  · simpa using exists_of_renameOuter h

/-- The answer for a class that is mapped to `new`: it keeps its name where the two are equal. -/
def answer (name new : String) : Option String :=
  if new = name then none else some new

end Relabel.Nested
