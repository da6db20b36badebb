import Mathlib.Data.List.TakeDrop
import Relabel.Proofs.Mapping.FieldTypes
import Relabel.Proofs.Text.Lines

/-!
# Method descriptors

A method descriptor is cut at its first `)`, and what stands before that is cut into field types.
A class name ends at a `;` and may hold a `)`; the descriptors that can be read are those that hold
none in a parameter. A renaming whose new names hold neither `;` nor `)` moves no cut.

## Main results

- `Descriptor.takeType?_eq_some_iff`: the field type that is read at the front.
- `Descriptor.method?_eq_some_iff`: the method descriptors that are read.
- `Descriptor.readsAlike_of_avoids`: reading renamed descriptors, and comparing two of them.
-/

namespace Relabel

namespace Descriptor

variable {f : ClassMap} {s t rest : List Char} {types : List (List Char)}

/-! ### Reading field types -/

/-- The one character that ends a class name in a descriptor. -/
def endsClass (c : Char) : Bool :=
  c = ';'

/-- No character ends a class exactly where there is no semicolon. -/
theorem forall_endsClass_eq_false_iff : (∀ c ∈ s, endsClass c = false) ↔ ';' ∉ s := by
  simp only [endsClass, decide_eq_false_iff_not]
  constructor
  · intro h hmem
    exact h ';' hmem rfl
  · rintro h c hc rfl
    exact h hc

/-- A field type is read in front of any text. -/
theorem takeType?_append (h : IsFieldType endsClass t) (rest : List Char) :
    takeType? (t ++ rest) = some (t, rest) := by
  induction h with
  | @primitive letter hletter =>
    have hbracket : letter ≠ '[' := by
      rintro rfl
      cases hletter
    rw [List.singleton_append, takeType?, if_neg hbracket, if_pos hletter]
  | @ofClass name hname =>
    -- The name ends at the first semicolon, which is the one that was written.
    have hspan : (name ++ ';' :: rest).span (· ≠ ';') = (name, ';' :: rest) :=
      Text.span_ne_eq_cons_iff.2 ⟨rfl, forall_endsClass_eq_false_iff.1 hname, rfl⟩
    rw [List.append_assoc, List.singleton_append, List.cons_append, takeType?, if_neg (by decide),
      if_neg (by decide), if_pos rfl, hspan]
  | array _ ih => rw [List.cons_append, takeType?, if_pos rfl, ih, Option.map_some]

/-- What is read is a field type. -/
theorem takeType?_eq_some (h : takeType? s = some (t, rest)) :
    IsFieldType endsClass t ∧ s = t ++ rest := by
  fun_induction takeType? s generalizing t rest with
  -- Cases 1, 5 and 6 are texts with nothing to take at the front.
  | case1 => cases h
  | case2 s ih =>
    obtain ⟨⟨element, after⟩, helement, heq⟩ := Option.map_eq_some_iff.1 h
    obtain ⟨rfl, rfl⟩ := Prod.mk.inj heq
    obtain ⟨hfield, rfl⟩ := ih helement
    exact ⟨.array hfield, rfl⟩
  | case3 c s _ hc =>
    obtain ⟨rfl, rfl⟩ := Prod.mk.inj (Option.some.inj h)
    exact ⟨.primitive hc, rfl⟩
  | case4 s name semicolon after hspan =>
    obtain ⟨rfl, hname, rfl⟩ := Text.span_ne_eq_cons_iff.1 hspan
    obtain ⟨rfl, rfl⟩ := Prod.mk.inj (Option.some.inj h)
    exact ⟨.ofClass (forall_endsClass_eq_false_iff.2 hname), by simp⟩
  | case5 => cases h
  | case6 => cases h

/-- A type is taken from the front exactly where one stands there. -/
theorem takeType?_eq_some_iff :
    takeType? s = some (t, rest) ↔ IsFieldType endsClass t ∧ s = t ++ rest := by
  constructor
  · exact takeType?_eq_some
  · rintro ⟨h, rfl⟩
    exact takeType?_append h rest

/-- A text is a type exactly where it is a field type up to semicolons. -/
theorem isType_iff : isType s ↔ IsFieldType endsClass s := by
  unfold isType
  split
  · next t h =>
    obtain ⟨ht, rfl⟩ := takeType?_eq_some h
    simpa using ht
  · next hnone =>
    refine ⟨fun h => (by cases h), fun h => ?_⟩
    have htake := takeType?_append h []
    rw [List.append_nil] at htake
    exact absurd htake (hnone s)

theorem IsFieldType.ne_nil {stop : Char → Bool} (h : IsFieldType stop t) : t ≠ [] := by
  cases h <;> simp

/-- Cutting takes as many field types as there are, and each is a character at least. -/
theorem takeTypes?_flatten (h : ∀ t ∈ types, IsFieldType endsClass t) {fuel : Nat}
    (hfuel : types.flatten.length ≤ fuel) : takeTypes? fuel types.flatten = some types := by
  induction types generalizing fuel with
  | nil => simp [takeTypes?]
  | cons t types ih =>
    obtain ⟨ht, htypes⟩ := List.forall_mem_cons.1 h
    -- A field type has a character, so fuel for it leaves enough for the rest.
    obtain ⟨c, t, rfl⟩ := List.exists_cons_of_ne_nil ht.ne_nil
    rw [List.flatten_cons, List.length_append, List.length_cons] at hfuel
    obtain ⟨fuel, rfl⟩ : ∃ n, fuel = n + 1 := ⟨fuel - 1, by omega⟩
    have hrest : takeTypes? fuel types.flatten = some types := ih htypes (by omega)
    rw [List.flatten_cons, takeTypes?, takeType?_append ht]
    · simp [hrest]
    · simp

/-- What is cut is a row of field types. -/
theorem takeTypes?_eq_some {fuel : Nat} (h : takeTypes? fuel s = some types) :
    (∀ t ∈ types, IsFieldType endsClass t) ∧ s = types.flatten := by
  fun_induction takeTypes? fuel s generalizing types with
  | case1 =>
    obtain rfl := Option.some.inj h
    exact ⟨List.forall_mem_nil _, rfl⟩
  | case2 => cases h
  | case3 fuel s _ ih =>
    simp only [Option.bind_eq_bind, Option.bind_eq_some_iff, Prod.exists, Option.pure_def] at h
    obtain ⟨t, rest, ht, types', htypes, h⟩ := h
    obtain rfl := Option.some.inj h
    obtain ⟨hfield, rfl⟩ := takeType?_eq_some ht
    obtain ⟨hfields, rfl⟩ := ih rest htypes
    exact ⟨List.forall_mem_cons.2 ⟨hfield, hfields⟩, rfl⟩

/-! ### Reading method descriptors -/

/-- A method descriptor with these types: its parameters between parentheses, then its result. -/
def Method.chars (m : Method) : List Char :=
  '(' :: m.params.flatMap String.toList ++ ')' :: m.result.toList

/-- The type of a result: a field type, or `V` for none. -/
def IsResult (type : String) : Prop :=
  type = "V" ∨ IsFieldType endsClass type.toList

/-- The parameters are field types, and the result is one or `V`. -/
structure Method.Typed (m : Method) : Prop where
  params : ∀ p ∈ m.params, IsFieldType endsClass p.toList
  result : IsResult m.result

/-- A text that is read as a method is one. -/
theorem Method.typed_of_method? {desc : String} {m : Method} (h : method? desc = some m) :
    m.Typed ∧ (∀ p ∈ m.params, ')' ∉ p.toList) ∧ desc.toList = m.chars := by
  unfold method? at h
  split at h
  · next rest hdesc =>
    simp only [Option.bind_eq_bind, Option.bind_eq_some_iff, Prod.exists] at h
    obtain ⟨before, result, hsplit, types, htypes, h⟩ := h
    obtain ⟨hfree, rfl⟩ := Text.splitFirst?_eq_some_iff.1 hsplit
    obtain ⟨hfields, rfl⟩ := takeTypes?_eq_some htypes
    split at h
    · next hresult =>
      obtain rfl := Option.some.inj h
      refine ⟨⟨?_, ?_⟩, ?_, ?_⟩
      · simpa using hfields
      · rcases hresult with rfl | hresult
        · exact .inl rfl
        · exact .inr (by simpa using isType_iff.1 hresult)
      -- A parenthesis in a parameter would have ended the parameters.
      · intro p hp hmem
        obtain ⟨t, ht, rfl⟩ := List.mem_map.1 hp
        rw [String.toList_ofList] at hmem
        exact hfree (List.mem_flatten.2 ⟨t, ht, hmem⟩)
      · rw [hdesc]
        simp [Method.chars, List.flatMap_map, List.flatMap_id']
    · cases h
  · cases h

/-- A method descriptor is read as its types where the first `)` is the one behind its
parameters. -/
theorem Method.Typed.method? {desc : String} {m : Method} (hm : m.Typed)
    (hfree : ∀ p ∈ m.params, ')' ∉ p.toList) (hdesc : desc.toList = m.chars) :
    method? desc = some m := by
  obtain ⟨params, result⟩ := m
  have hsplit : Text.splitFirst? ')' (params.flatMap String.toList ++ ')' :: result.toList) =
      some (params.flatMap String.toList, result.toList) := by
    -- The first closing parenthesis is the one behind the parameters.
    refine Text.splitFirst?_eq_some_iff.2 ⟨fun hmem => ?_, rfl⟩
    obtain ⟨p, hp, hmem⟩ := List.mem_flatMap.1 hmem
    exact hfree p hp hmem
  have htypes : takeTypes? (params.flatMap String.toList).length (params.flatMap String.toList) =
      some (params.map String.toList) := by
    refine takeTypes?_flatten ?_ (Nat.le_refl _)
    intro t ht
    obtain ⟨p, hp, rfl⟩ := List.mem_map.1 ht
    exact hm.params p hp
  have hresult : result.toList = ['V'] ∨ isType result.toList :=
    hm.result.imp (congrArg String.toList) isType_iff.2
  unfold Descriptor.method?
  rw [hdesc]
  simp only [Method.chars, List.cons_append, hsplit, htypes, Option.bind_eq_bind,
    Option.bind_some, if_pos hresult]
  simp

/-- The descriptors that are read as a method are those of its types, as long as no parameter holds
a `)`: the first one ends the parameters, also where it stands in a class name. -/
theorem method?_eq_some_iff {desc : String} {m : Method} :
    method? desc = some m ↔
      m.Typed ∧ (∀ p ∈ m.params, ')' ∉ p.toList) ∧ desc.toList = m.chars := by
  constructor
  · exact Method.typed_of_method?
  · rintro ⟨hm, hfree, hdesc⟩
    exact hm.method? hfree hdesc

/-- A class name with a `)` in it is read in the result of a method, but not in a parameter. -/
example : method? "()La)b;" = some ⟨[], "La)b;"⟩ ∧ method? "(La)b;)V" = none := by
  decide

/-! ### Renaming what is read -/

/-- A renamed field type is a field type, and holds no `)` that it did not hold before. -/
theorem IsFieldType.renameChars (hsemicolon : f.Avoids ';') (h : IsFieldType endsClass t) :
    IsFieldType endsClass (renameChars f t) ∧
      (f.Avoids ')' → ')' ∉ t → ')' ∉ Descriptor.renameChars f t) := by
  induction h with
  | @primitive letter hletter =>
    rw [renameChars_cons (ne_of_isPrimitive hletter)]
    exact ⟨.primitive hletter, fun _ hfree => hfree⟩
  | @ofClass name hname =>
    have hname' := forall_endsClass_eq_false_iff.1 hname
    have hnew := hsemicolon.not_mem_image hname'
    rw [renameChars_ofClass hname']
    -- A parenthesis in the image would come from the map, or from the old name.
    refine ⟨.ofClass (forall_endsClass_eq_false_iff.2 hnew), fun hparen hfree hmem => ?_⟩
    have himage : ')' ∉ f.image name := hparen.not_mem_image fun hold => hfree (by simp [hold])
    simp [himage, Descriptor.renameChars, segments, segmentsFrom] at hmem
  | array _ ih =>
    rw [renameChars_cons (by decide)]
    refine ⟨.array ih.1, fun hparen hfree => ?_⟩
    simpa using ih.2 hparen (by simpa using hfree)

/-- Field types in a row are renamed one by one. -/
theorem renameChars_flatten (h : ∀ t ∈ types, IsFieldType endsClass t) (rest : List Char) :
    renameChars f (types.flatten ++ rest) =
      (types.map (renameChars f)).flatten ++ renameChars f rest := by
  induction types with
  | nil => rfl
  | cons t types ih =>
    obtain ⟨ht, htypes⟩ := List.forall_mem_cons.1 h
    rw [List.flatten_cons, List.append_assoc, renameChars_append rfl ht, ih htypes, List.map_cons,
      List.flatten_cons, List.append_assoc]

/-- A renamed descriptor, in characters. -/
theorem toList_rename (f : ClassMap) (desc : String) :
    (rename f desc).toList = renameChars f desc.toList := by
  rw [rename_eq, String.toList_ofList]

/-- A method with its types renamed. -/
def Method.rename (f : ClassMap) (m : Method) : Method where
  params := m.params.map (Descriptor.rename f)
  result := Descriptor.rename f m.result

/-- Renaming keeps the types of a method. -/
theorem Method.Typed.rename {m : Method} (hm : m.Typed) (hf : f.Avoids ';') :
    (m.rename f).Typed where
  params p hp := by
    obtain ⟨old, hold, rfl⟩ := List.mem_map.1 hp
    rw [toList_rename]
    exact ((hm.params old hold).renameChars hf).1
  result := by
    rcases hm.result with hvoid | hfield
    -- `V` stays as it is, and any other result is a field type.
    · left
      rw [Method.rename, hvoid]
      rfl
    · right
      rw [Method.rename, toList_rename]
      exact (hfield.renameChars hf).1

/-- The descriptor of a method is renamed type by type. -/
theorem Method.Typed.renameChars_chars {m : Method} (hm : m.Typed) :
    renameChars f m.chars = (m.rename f).chars := by
  have hparams : ∀ t ∈ m.params.map String.toList, IsFieldType endsClass t := by
    intro t ht
    obtain ⟨p, hp, rfl⟩ := List.mem_map.1 ht
    exact hm.params p hp
  -- The parameters are renamed one by one in either form.
  have hnew : (m.rename f).params.flatMap String.toList =
      ((m.params.map String.toList).map (renameChars f)).flatten := by
    simp [Method.rename, List.flatMap_def, Function.comp_def, toList_rename]
  rw [Method.chars, Method.chars, List.cons_append, List.cons_append,
    renameChars_cons (by decide), List.flatMap_def, renameChars_flatten hparams,
    renameChars_cons (by decide), hnew, Method.rename, toList_rename]

/-- Reading a renamed descriptor gives the types renamed. -/
theorem method?_rename_of_method? {desc : String} {m : Method} (hsemicolon : f.Avoids ';')
    (hparen : f.Avoids ')') (h : method? desc = some m) :
    method? (rename f desc) = some (m.rename f) := by
  obtain ⟨hm, hfree, hdesc⟩ := method?_eq_some_iff.1 h
  refine (hm.rename hsemicolon).method? (fun p hp => ?_) ?_
  · obtain ⟨old, hold, rfl⟩ := List.mem_map.1 hp
    rw [toList_rename]
    exact ((hm.params old hold).renameChars hsemicolon).2 hparen (hfree old hold)
  · rw [toList_rename, hdesc, hm.renameChars_chars]

/-! ### Comparing what is renamed -/

/-- A class or an array is still one, and all else stays as it is. -/
theorem isReference_rename {type : String} (h : IsResult type) :
    (isReference type ∧ isReference (rename f type)) ∨
      (isReference type = false ∧ rename f type = type) := by
  rcases h with rfl | h
  -- `V` is neither a class nor an array.
  · exact .inr ⟨rfl, rfl⟩
  · rw [← String.toList_inj, isReference, isReference, toList_rename]
    generalize type.toList = t at h ⊢
    cases h with
    | @primitive letter hletter =>
      right
      have hbracket : letter ≠ '[' := by
        rintro rfl
        cases hletter
      rw [renameChars_cons (ne_of_isPrimitive hletter)]
      exact ⟨by simp [ne_of_isPrimitive hletter, hbracket], rfl⟩
    | ofClass hname =>
      left
      rw [renameChars_ofClass (forall_endsClass_eq_false_iff.1 hname)]
      simp
    | array _ =>
      left
      rw [renameChars_cons (by decide)]
      simp

/-- A reference takes one slot. -/
theorem slotCount_of_isReference {type : String} (h : isReference type) : slotCount type = 1 := by
  unfold slotCount
  split
  · next hwide =>
    rcases hwide with rfl | rfl <;> cases h
  · rfl

/-- A renaming changes the size of no value. -/
theorem slotCount_rename {type : String} (h : IsResult type) :
    slotCount (rename f type) = slotCount type := by
  rcases isReference_rename (f := f) h with ⟨hold, hnew⟩ | ⟨-, hsame⟩
  · rw [slotCount_of_isReference hold, slotCount_of_isReference hnew]
  · rw [hsame]

/-- Types are equal after erasure where they were so before. -/
theorem erasesTo_rename {x y : String} (hx : IsResult x) (hy : IsResult y) :
    erasesTo (rename f x) (rename f y) = erasesTo x y := by
  unfold erasesTo
  rcases isReference_rename (f := f) hx with ⟨hold, hnew⟩ | ⟨hprimitive, hsame⟩
  · rcases isReference_rename (f := f) hy with ⟨hold', hnew'⟩ | ⟨hprimitive', hsame'⟩
    · simp [hold, hnew, hold', hnew']
    · -- A class is no primitive, under its new name as under its old one.
      have hne : x ≠ y := fun heq => by simp [heq, hprimitive'] at hold
      have hne' : rename f x ≠ y := fun heq => by simp [heq, hprimitive'] at hnew
      simp [hsame', hne, hne', hprimitive']
  · rcases isReference_rename (f := f) hy with ⟨hold', hnew'⟩ | ⟨hprimitive', hsame'⟩
    -- The same with the two types exchanged.
    · have hne : x ≠ y := fun heq => by simp [← heq, hprimitive] at hold'
      have hne' : x ≠ rename f y := fun heq => by simp [← heq, hprimitive] at hnew'
      simp [hsame, hne, hne', hprimitive]
    · rw [hsame, hsame']

/-- A test of pairs that comes out the same for the images of their parts. -/
theorem all_zip_map {test : String × String → Bool} {g : String → String} {xs ys : List String}
    (h : ∀ x ∈ xs, ∀ y ∈ ys, test (g x, g y) = test (x, y)) :
    ((xs.map g).zip (ys.map g)).all test = (xs.zip ys).all test := by
  rw [List.zip_map, List.all_map, Bool.eq_iff_iff, List.all_eq_true, List.all_eq_true]
  refine forall₂_congr fun xy hxy => ?_
  obtain ⟨hx, hy⟩ := List.of_mem_zip hxy
  rw [← h xy.1 hx xy.2 hy]
  rfl

/-- A bridge forwards to a method under their new names where it does so under their old ones. -/
theorem erasureCompatible_rename {bridge target : String} {b t : Method}
    (hsemicolon : f.Avoids ';') (hparen : f.Avoids ')') (hbridge : method? bridge = some b)
    (htarget : method? target = some t) :
    erasureCompatible (rename f bridge) (rename f target) = erasureCompatible bridge target := by
  obtain ⟨hb, -, -⟩ := method?_eq_some_iff.1 hbridge
  obtain ⟨ht, -, -⟩ := method?_eq_some_iff.1 htarget
  simp only [erasureCompatible, hbridge, htarget,
    method?_rename_of_method? hsemicolon hparen hbridge,
    method?_rename_of_method? hsemicolon hparen htarget, Method.rename, List.length_map,
    erasesTo_rename hb.result ht.result]
  -- The number of parameters stays, so they can be compared one by one.
  rw [all_zip_map fun x hx y hy => ?_]
  exact erasesTo_rename (.inr (hb.params x hx)) (.inr (ht.params y hy))

/-- What is read of renamed descriptors is what is read of the old ones, renamed: types, sizes of
parameters and which bridges may forward to which methods. -/
structure ClassMap.ReadsAlike (f : ClassMap) : Prop where
  types : ∀ desc m, method? desc = some m → method? (rename f desc) = some (m.rename f)
  slots : ∀ desc m, method? desc = some m →
    ∀ p ∈ m.params, slotCount (rename f p) = slotCount p
  erasure : ∀ bridge target, (method? bridge).isSome → (method? target).isSome →
    erasureCompatible (rename f bridge) (rename f target) = erasureCompatible bridge target

/-- A renaming commutes with reading where no new name holds a character that a descriptor is cut
at. -/
theorem readsAlike_of_avoids (hsemicolon : f.Avoids ';') (hparen : f.Avoids ')') :
    f.ReadsAlike where
  types _ _ h := method?_rename_of_method? hsemicolon hparen h
  slots _ _ h p hp := by
    obtain ⟨hm, -, -⟩ := method?_eq_some_iff.1 h
    exact slotCount_rename (.inr (hm.params p hp))
  erasure bridge target hbridge htarget := by
    obtain ⟨b, hb⟩ := Option.isSome_iff_exists.1 hbridge
    obtain ⟨t, ht⟩ := Option.isSome_iff_exists.1 htarget
    exact erasureCompatible_rename hsemicolon hparen hb ht

/-- A class is named after a type that takes two slots, another after the start of a descriptor. -/
theorem readsAlike_of_avoids_letters :
    let f : ClassMap := fun name => if name = "a" then some "J" else if name = "b" then some "([L"
      else none
    f.Avoids ';' ∧ f.Avoids ')' ∧ method? "(La;J[Lb;)La)b;" = some ⟨["La;", "J", "[Lb;"], "La)b;"⟩ ∧
      method? (rename f "(La;J[Lb;)La)b;") = some ⟨["LJ;", "J", "[L([L;"], "La)b;"⟩ := by
  intro f
  -- The new names bring in no character but these four.
  have hf : ∀ c, c ∉ ['J', '(', '[', 'L'] → f.Avoids c := by
    intro c hc name new hnew
    simp only [f] at hnew
    split at hnew
    · obtain rfl := Option.some.inj hnew
      simp_all
    · split at hnew
      · obtain rfl := Option.some.inj hnew
        simp_all
      · cases hnew
  have hread : method? "(La;J[Lb;)La)b;" = some ⟨["La;", "J", "[Lb;"], "La)b;"⟩ := by decide
  refine ⟨hf _ (by decide), hf _ (by decide), hread, ?_⟩
  rw [(readsAlike_of_avoids (hf _ (by decide)) (hf _ (by decide))).types _ _ hread]
  decide

end Descriptor

end Relabel
