import Relabel.Proofs.Mapping.Tokens

/-!
# Field types

The texts that are field types and method descriptors. A renaming cuts a text nowhere inside of a
field type, so that it renames the types of a descriptor one by one.

## Main results

- `renameChars_append`: a field type and what follows it.
-/

namespace Relabel.Descriptor

variable {f : ClassMap} {stop : Char → Bool} {c : Char} {s : List Char}

/-- A field type: any number of `[` before a primitive letter or a class name between `L` and `;`.
No character of a kind is in the class name. -/
inductive IsFieldType (stop : Char → Bool) : List Char → Prop
  | primitive {letter : Char} (h : isPrimitive letter) : IsFieldType stop [letter]
  | ofClass {name : List Char} (h : ∀ c ∈ name, stop c = false) :
    IsFieldType stop ('L' :: name ++ [';'])
  | array {element : List Char} (h : IsFieldType stop element) : IsFieldType stop ('[' :: element)

/-- A method descriptor: field types between parentheses, and a field type or `V` for the result. -/
def IsMethod (stop : Char → Bool) (s : List Char) : Prop :=
  ∃ (params : List (List Char)) (result : List Char), (∀ p ∈ params, IsFieldType stop p) ∧
    (result = ['V'] ∨ IsFieldType stop result) ∧ s = '(' :: params.flatten ++ ')' :: result

/-! ### Renaming -/

/-- A text with every class name mapped. -/
def renameChars (f : ClassMap) (s : List Char) : List Char :=
  (segments s).flatMap fun x => (x.rename f).chars

/-- A descriptor is renamed by its characters. -/
theorem rename_eq (f : ClassMap) (desc : String) :
    rename f desc = String.ofList (renameChars f desc.toList) :=
  rfl

theorem renameChars_cons (hc : c ≠ 'L') (s : List Char) :
    renameChars f (c :: s) = c :: renameChars f s := by
  rw [renameChars, segments, segmentsFrom, if_neg hc, List.flatMap_cons]
  rfl

/-- A class is renamed up to its semicolon. -/
theorem renameChars_ofClass {name : List Char} (hname : ';' ∉ name) (rest : List Char) :
    renameChars f ('L' :: name ++ ';' :: rest) =
      'L' :: f.image name ++ ';' :: renameChars f rest := by
  rw [renameChars, segments, List.cons_append, segmentsFrom, if_pos rfl,
    segmentsFrom_append_semicolon hname, List.flatMap_cons, Segment.rename, Segment.chars]
  simp [renameChars, segments]

theorem ne_of_isPrimitive (h : isPrimitive c) : c ≠ 'L' := by
  rintro rfl
  cases h

/-- A field type is renamed in front of other text as it is alone. -/
theorem renameChars_append (hstop : stop ';') (h : IsFieldType stop s) (rest : List Char) :
    renameChars f (s ++ rest) = renameChars f s ++ renameChars f rest := by
  induction h with
  | primitive hletter =>
    rw [List.singleton_append, renameChars_cons (ne_of_isPrimitive hletter),
      renameChars_cons (ne_of_isPrimitive hletter)]
    rfl
  | @ofClass name hname =>
    have hsemicolon : ';' ∉ name := fun hmem =>
      Bool.false_ne_true ((hname ';' hmem).symm.trans hstop)
    rw [List.append_assoc, List.singleton_append, renameChars_ofClass hsemicolon,
      renameChars_ofClass hsemicolon, List.append_assoc]
    rfl
  | array helement ih =>
    rw [List.cons_append, renameChars_cons (by decide), renameChars_cons (by decide), ih,
      List.cons_append]

end Relabel.Descriptor
