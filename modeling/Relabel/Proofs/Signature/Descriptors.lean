import Relabel.Proofs.Mapping.FieldTypes
import Relabel.Proofs.Signature.Renaming

/-!
# Descriptors as signatures

A descriptor is the signature of what has no generic type, as long as no class name in it holds a
character that ends a name in a signature. Both ways to rename it come to the same.

## Main results

- `exists_typeSig`: the tree of a field type.
- `rename_eq_descriptorRename`: renaming a descriptor as a signature.
-/

namespace Relabel.Signature

open Descriptor (ClassMap IsFieldType IsMethod renameChars renameChars_cons renameChars_append)

variable {s : List Char} {params : List (List Char)}

/-! ### Field types -/

/-- A field type is read as a type. Behind a renaming the type is written as the field type is. -/
theorem exists_typeSig (h : IsFieldType endsName s) :
    ∃ type : TypeSig, type.Readable ∧ type.chars = s ∧
      ∀ f : ClassMap, (type.rename f).chars = renameChars f s := by
  induction h with
  | @primitive letter hletter =>
    refine ⟨.primitive letter, .inl hletter, rfl, fun f => ?_⟩
    rw [renameChars_cons (Descriptor.ne_of_isPrimitive hletter)]
    rfl
  | @ofClass name hname =>
    have hsemicolon : ';' ∉ name := fun hmem => Bool.false_ne_true (hname ';' hmem).symm
    refine ⟨.ofClass (String.ofList name) .done, ⟨?_, trivial⟩, ?_, fun f => ?_⟩
    · rwa [Free, String.toList_ofList]
    · rw [TypeSig.chars, ClassTail.chars, String.toList_ofList]
    · have himage := Descriptor.ClassMap.image_toList f (String.ofList name)
      rw [String.toList_ofList] at himage
      rw [Descriptor.renameChars_ofClass hsemicolon, himage]
      rfl
  | array helement ih =>
    obtain ⟨type, hreadable, hchars, hrename⟩ := ih
    refine ⟨.array type, hreadable, ?_, fun f => ?_⟩
    · rw [TypeSig.chars, hchars]
    · rw [TypeSig.rename, TypeSig.chars, hrename, renameChars_cons (by decide)]

/-- The same for the types of parameters, which are renamed in front of other text. -/
theorem exists_typeSigs (h : ∀ p ∈ params, IsFieldType endsName p) :
    ∃ types : List TypeSig, (∀ t ∈ types, t.Readable) ∧
      types.flatMap TypeSig.chars = params.flatten ∧
      ∀ (f : ClassMap) (rest : List Char), renameChars f (params.flatten ++ rest) =
        (types.map (TypeSig.rename f)).flatMap TypeSig.chars ++ renameChars f rest := by
  induction params with
  | nil => exact ⟨[], by simp, rfl, fun f rest => rfl⟩
  | cons p params ih =>
    obtain ⟨hp, hparams⟩ := List.forall_mem_cons.1 h
    obtain ⟨type, htype, hchars, hrename⟩ := exists_typeSig hp
    obtain ⟨types, htypes, hchars', hrename'⟩ := ih hparams
    refine ⟨type :: types, List.forall_mem_cons.2 ⟨htype, htypes⟩, ?_, fun f rest => ?_⟩
    · rw [List.flatMap_cons, hchars, hchars', List.flatten_cons]
    · rw [List.flatten_cons, List.append_assoc, renameChars_append rfl hp, hrename', List.map_cons,
        List.flatMap_cons, hrename, List.append_assoc]

/-- The result of a method is a field type or none. -/
theorem exists_result (h : s = ['V'] ∨ IsFieldType endsName s) :
    ∃ type : TypeSig, type.Readable ∧ type.chars = s ∧
      ∀ f : ClassMap, (type.rename f).chars = renameChars f s := by
  rcases h with rfl | h
  · exact ⟨.primitive 'V', .inr rfl, rfl, fun f => rfl⟩
  · exact exists_typeSig h

/-! ### Descriptors -/

theorem rename_fieldType {desc : String} (h : IsFieldType endsName desc.toList) (f : ClassMap) :
    rename f desc = Descriptor.rename f desc := by
  obtain ⟨type, hreadable, hchars, hrename⟩ := exists_typeSig h
  have hprint (type : TypeSig) : (ofType type).print = String.ofList type.chars := by
    simp [ofType, print, chars, Body.chars]
  have hdesc : desc = (ofType type).print := by
    rw [hprint, hchars, String.ofList_toList]
  rw [Descriptor.rename_eq, ← hrename, ← hprint, ← rename_ofType hreadable, ← hdesc]

theorem rename_methodDescriptor {desc : String} (h : IsMethod endsName desc.toList) (f : ClassMap) :
    rename f desc = Descriptor.rename f desc := by
  obtain ⟨params, result, hparams, hresult, htext⟩ := h
  obtain ⟨types, htypes, hchars, hrename⟩ := exists_typeSigs hparams
  obtain ⟨type, htype, hchars', hrename'⟩ := exists_result hresult
  -- A descriptor is a signature without type parameters and thrown types.
  let signature : Signature := { params := none, body := .method types type [] }
  have hreadable : signature.Readable :=
    ⟨fun _ hps => (Option.some_ne_none _ hps.symm).elim, htypes, htype, List.forall_mem_nil _⟩
  have hdesc : desc = signature.print := by
    rw [← String.ofList_toList (s := desc), htext]
    simp [signature, print, chars, Body.chars, hchars, hchars']
  have hnew : (signature.mapClasses f).chars = renameChars f desc.toList := by
    rw [htext, List.cons_append, renameChars_cons (by decide), hrename,
      renameChars_cons (by decide), ← hrename']
    simp [signature, mapClasses, chars, Body.rename, Body.chars]
  rw [Descriptor.rename_eq, ← hnew, ← print, ← hreadable.rename_eq, ← hdesc]

/-- A descriptor whose class names hold no character that ends a name in a signature is renamed as a
signature as it is as a descriptor. -/
theorem rename_eq_descriptorRename {desc : String}
    (h : IsFieldType endsName desc.toList ∨ IsMethod endsName desc.toList) (f : ClassMap) :
    rename f desc = Descriptor.rename f desc := by
  rcases h with hfield | hmethod
  · exact rename_fieldType hfield f
  · exact rename_methodDescriptor hmethod f

/-- A method with primitives, arrays and classes. -/
theorem rename_eq_descriptorRename_arrays :
    IsMethod endsName "(I[La/B;[[JLb;)La/B;".toList ∧
      rename (ofRows [("a/B", "c"), ("b", "L")]) "(I[La/B;[[JLb;)La/B;" = "(I[Lc;[[JLL;)Lc;" := by
  have hname : IsFieldType endsName ('L' :: ['a', '/', 'B'] ++ [';']) :=
    .ofClass (by simp [endsName])
  have hname' : IsFieldType endsName ('L' :: ['b'] ++ [';']) :=
    .ofClass (by simp [endsName])
  have hparams : ∀ p ∈ [['I'], '[' :: ('L' :: ['a', '/', 'B'] ++ [';']), ['[', '[', 'J'],
      'L' :: ['b'] ++ [';']], IsFieldType endsName p := by
    simp only [List.forall_mem_cons]
    exact ⟨.primitive rfl, .array hname, .array (.array (.primitive rfl)), hname',
      List.forall_mem_nil _⟩
  have hmethod : IsMethod endsName "(I[La/B;[[JLb;)La/B;".toList :=
    ⟨_, _, hparams, .inr hname, by decide⟩
  exact ⟨hmethod, (rename_eq_descriptorRename (.inr hmethod) _).trans (by decide)⟩

end Relabel.Signature
