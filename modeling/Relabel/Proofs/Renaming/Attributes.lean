import Relabel.Proofs.ClassFile.Codec
import Relabel.Proofs.Renaming.Classes

/-!
# What a renaming keeps of attributes

A list of attributes keeps all of them in order, stack map frames apart, which go exactly where that
is asked for. Attributes inside bodies and record components are kept in the same way, and a body
keeps its instructions, its limits and its handlers. One attribute may be added: a table of local
variables behind those of a body that had none.

## Main results

- `AttributeKept`: what one attribute keeps, to any depth.
- `Scope.Ready.renameAttributes`: a renaming keeps a list of attributes.
-/

namespace Relabel

/-! ### Record components -/

/-- A component of a record. -/
structure RecordComponent where
  nameIndex : UInt16
  descIndex : UInt16
  attributes : Array Attribute

namespace RecordComponent

/-- Reads a component. -/
def decoder : Decoder RecordComponent := do
  let nameIndex ← Decoder.u16
  let descIndex ← Decoder.u16
  let attributes ← Attribute.decodeList
  return { nameIndex, descIndex, attributes }

/-- The binary form of a component. -/
def encode (c : RecordComponent) : Except FormatError Bytes := do
  let attributes ← Attribute.encodeList .componentAttributes c.attributes
  return Bytes.ofUInt16 c.nameIndex ++ (Bytes.ofUInt16 c.descIndex ++ attributes)

/-- The components at the front of a payload. -/
def decodeList (data : Bytes) : Except FormatError (Array RecordComponent) :=
  (Decoder.counted decoder).decode data

/-- What stands in a component is shorter than what it is read from. -/
theorem length_le_of_decoder {c : RecordComponent} {input input' : Input}
    (h : decoder input = .ok c input') :
    input'.rest.length ≤ input.rest.length ∧
      ∀ a ∈ c.attributes, a.data.length < input.rest.length := by
  simp only [decoder, EStateM.bind_eq_ok, EStateM.pure_eq_ok] at h
  obtain ⟨i, input₁, hi, j, input₂, hj, attributes, input₃, hread, rfl, rfl⟩ := h
  -- Two indices and the attributes are taken one after the other.
  have hle₁ := Decoder.shrinks_u16 _ _ _ hi
  have hle₂ := Decoder.shrinks_u16 _ _ _ hj
  have hle₃ := Attribute.shrinks_decodeList _ _ _ hread
  refine ⟨by omega, fun a ha => ?_⟩
  have hlt := Attribute.length_lt_of_mem_decodeList hread ha
  omega

/-- A component reads back as it is written. -/
theorem reads_encode {c : RecordComponent} {form : Bytes} (h : c.encode = .ok form) :
    decoder.Reads form c := by
  obtain ⟨attributes, hattributes, h⟩ := Except.bind_eq_ok.1 h
  obtain rfl := Except.ok.inj h
  refine (Decoder.reads_u16 c.nameIndex).bind ((Decoder.reads_u16 c.descIndex).bind ?_)
  exact (Attribute.reads_encodeList hattributes).map

end RecordComponent

/-! ### Attributes that are kept -/

/-- An attribute is named by the text that its slot holds. -/
theorem Attribute.isNamed_iff {p : Pool} {name : String} {a : Attribute} :
    a.isNamed p name = true ↔ p.utf8 a.nameIndex = .ok name := by
  unfold isNamed
  split
  · next n hn => simp [hn]
  · next e he => simp [he]

/-- The attributes of a list without stack map frames. -/
def withoutFrames (p : Pool) (attributes : Array Attribute) : List Attribute :=
  attributes.toList.filter fun a => !(a.isNamed p "StackMapTable" || a.isNamed p "StackMap")

/-- The attributes that stay in a list. -/
def keptAttributes (settings : RelabelSettings) (p : Pool) (attributes : Array Attribute) :
    List Attribute :=
  if settings.removeFrames then withoutFrames p attributes else attributes.toList

/-- The attributes that are kept are among those that were there. -/
theorem mem_of_mem_keptAttributes {settings : RelabelSettings} {p : Pool}
    {attributes : Array Attribute} {a : Attribute} (h : a ∈ keptAttributes settings p attributes) :
    a ∈ attributes := by
  unfold keptAttributes withoutFrames at h
  split at h
  · exact Array.mem_toList_iff.1 (List.mem_filter.1 h).1
  · exact Array.mem_toList_iff.1 h

/-- Attributes whose payloads are patched; the name of a source file only where that is asked
for. -/
def patchedNames (settings : RelabelSettings) : List String :=
  ["Signature", "LocalVariableTable", "LocalVariableTypeTable", "InnerClasses", "EnclosingMethod",
    "RuntimeVisibleAnnotations", "RuntimeInvisibleAnnotations",
    "RuntimeVisibleParameterAnnotations", "RuntimeInvisibleParameterAnnotations",
    "RuntimeVisibleTypeAnnotations", "RuntimeInvisibleTypeAnnotations", "AnnotationDefault"] ++
  if settings.rebuildSourceFilenames then ["SourceFile"] else []

/-- What is put behind the attributes of a body: nothing, or one table of local variables, if such
tables are rewritten and the body had none. -/
def AddedTable (settings : RelabelSettings) (p q : Pool) (before : Array Attribute)
    (added : List Attribute) : Prop :=
  added = [] ∨ settings.locals.isSome ∧ (∀ a ∈ before, a.isNamed p "LocalVariableTable" = false) ∧
    ∃ table, added = [table] ∧ q.utf8 table.nameIndex = .ok "LocalVariableTable"

/-- What an attribute keeps, where `p` is the pool before and `q` the pool after. -/
inductive AttributeKept (settings : RelabelSettings) (p q : Pool) : Attribute → Attribute → Prop
  | same {a : Attribute} {name : String} :
    p.utf8 a.nameIndex = .ok name →
    name ∉ patchedNames settings → name ≠ "Code" → name ≠ "Record" →
    AttributeKept settings p q a a
  | patched {a : Attribute} {name : String} {data : Bytes} :
    p.utf8 a.nameIndex = .ok name →
    name ∈ patchedNames settings →
    AttributeKept settings p q a { a with data }
  | code {a : Attribute} {data : Bytes} {code : Code} {attributes added : List Attribute} :
    p.utf8 a.nameIndex = .ok "Code" →
    Code.decode a.data = .ok code →
    Code.decode data = .ok { code with attributes := (attributes ++ added).toArray } →
    List.Forall₂ (AttributeKept settings p q) (keptAttributes settings p code.attributes)
      attributes →
    AddedTable settings p q code.attributes added →
    AttributeKept settings p q a { a with data }
  | record {a : Attribute} {data : Bytes} {components components' : Array RecordComponent} :
    p.utf8 a.nameIndex = .ok "Record" →
    RecordComponent.decodeList a.data = .ok components →
    RecordComponent.decodeList data = .ok components' →
    List.Forall₂ (List.Forall₂ (AttributeKept settings p q))
      (components.toList.map fun c => keptAttributes settings p c.attributes)
      (components'.toList.map fun c => c.attributes.toList) →
    AttributeKept settings p q a { a with data }

namespace AttributeKept

variable {settings : RelabelSettings} {p q : Pool} {a a' : Attribute}

/-- An attribute keeps its name. -/
theorem nameIndex_eq (h : AttributeKept settings p q a a') : a'.nameIndex = a.nameIndex := by
  cases h <;> rfl

end AttributeKept

/-! ### New payloads for some attributes -/

/-- An attribute as it was, or with another payload if it has one of these names. -/
inductive Repaid (p : Pool) (names : List String) : Attribute → Attribute → Prop
  | same (a : Attribute) : Repaid p names a a
  | named {a : Attribute} {name : String} {data : Bytes} :
    p.utf8 a.nameIndex = .ok name → name ∈ names → Repaid p names a { a with data }

section Repaid

variable {settings : RelabelSettings} {p q : Pool} {names : List String}

/-- A new payload leaves the name of an attribute. -/
theorem Repaid.nameIndex_eq {a a' : Attribute} (h : Repaid p names a a') :
    a'.nameIndex = a.nameIndex := by
  cases h <;> rfl

/-- Attributes that stay have their own payloads. -/
theorem forall₂_repaid_refl (attributes : List Attribute) :
    List.Forall₂ (Repaid p names) attributes attributes :=
  List.forall₂_same.2 fun a _ => .same a

/-- A payload that is new twice is new. -/
theorem Repaid.trans {a b c : Attribute} (h : Repaid p names a b) (h' : Repaid p names b c) :
    Repaid p names a c := by
  cases h' with
  | same => exact h
  | named hname hmem =>
    have hindex := h.nameIndex_eq
    rw [hindex] at hname ⊢
    exact .named hname hmem

/-- Another payload for an attribute that is patched anyway undoes nothing. -/
theorem AttributeKept.repaid (hnames : names ⊆ patchedNames settings) {a b c : Attribute}
    (h : AttributeKept settings p q a b) (h' : Repaid p names b c) :
    AttributeKept settings p q a c := by
  cases h' with
  | same => exact h
  | named hname hmem =>
    have hindex := h.nameIndex_eq
    rw [hindex] at hname ⊢
    exact .patched hname (hnames hmem)

/-- Replacing the payload of an attribute that has one of the names; what stands behind the list is
not touched. -/
theorem exists_modify_append {as kept : List Attribute} {i : Nat} {a : Attribute} {name : String}
    (h : List.Forall₂ (Repaid p names) as kept) (hi : as[i]? = some a)
    (ha : p.utf8 a.nameIndex = .ok name) (hname : name ∈ names) (data : Bytes)
    (added : List Attribute) :
    ∃ kept', (kept ++ added).modify i (fun a => { a with data }) = kept' ++ added ∧
      List.Forall₂ (Repaid p names) as kept' := by
  induction h generalizing i with
  | nil => cases hi
  | @cons a' b as kept hab hrest ih =>
    -- The attribute is the first, or stands further behind.
    cases i with
    | zero =>
      obtain rfl : a' = a := Option.some.inj hi
      have hb : Repaid p names b { b with data } := .named (hab.nameIndex_eq ▸ ha) hname
      exact ⟨{ b with data } :: kept, rfl, .cons (hab.trans hb) hrest⟩
    | succ i =>
      obtain ⟨kept', heq, hkept'⟩ := ih hi
      refine ⟨b :: kept', ?_, .cons hab hkept'⟩
      rw [List.cons_append, List.modify_succ_cons, heq, List.cons_append]

end Repaid

/-- An attribute found by its name has it. -/
theorem getElem?_of_findIdx? {p : Pool} {name : String} {attributes : Array Attribute} {i : Nat}
    (h : attributes.findIdx? (Attribute.isNamed p name) = some i) :
    ∃ a, attributes.toList[i]? = some a ∧ p.utf8 a.nameIndex = .ok name := by
  obtain ⟨hlt, hnamed, -⟩ := Array.findIdx?_eq_some_iff_getElem.1 h
  exact ⟨attributes[i], by simp [hlt], Attribute.isNamed_iff.1 hnamed⟩

namespace Scope

open Pool

variable {s : Scope} {p q final : Pool}

/-! ### Tables of local variables -/

/-- The tables that hold names of local variables. -/
def tableNames : List String := ["LocalVariableTable", "LocalVariableTypeTable"]

/-- A table is put into its place, or behind all attributes. -/
theorem Ready.putTable {attributes attributes' : Array Attribute} {data : Bytes} (hp : s.Ready p)
    (h : putTable attributes
      (attributes.findIdx? (Attribute.isNamed s.source "LocalVariableTable")) data p =
        .ok attributes' q) :
    ∃ kept added, attributes'.toList = kept ++ added ∧
      List.Forall₂ (Repaid s.source tableNames) attributes.toList kept ∧
      (added = [] ∨ (∀ a ∈ attributes, a.isNamed s.source "LocalVariableTable" = false) ∧
        ∃ table, added = [table] ∧ q.utf8 table.nameIndex = .ok "LocalVariableTable") := by
  cases hplace : attributes.findIdx? (Attribute.isNamed s.source "LocalVariableTable") with
  | some i =>
    rw [hplace] at h
    obtain ⟨rfl, rfl⟩ := EStateM.pure_eq_ok.1 h
    obtain ⟨a, ha, hname⟩ := getElem?_of_findIdx? hplace
    obtain ⟨kept, heq, hkept⟩ := exists_modify_append (forall₂_repaid_refl _) ha hname
      (List.mem_cons_self : _ ∈ tableNames) data []
    refine ⟨kept, [], ?_, hkept, .inl rfl⟩
    rw [setPayload, Array.toList_modify, ← heq, List.append_nil]
  | none =>
    rw [hplace] at h
    simp only [Scope.putTable, EStateM.bind_eq_ok, EStateM.pure_eq_ok] at h
    obtain ⟨i, _, hi, rfl, rfl⟩ := h
    obtain ⟨-, -, hread⟩ := hp.coherent.internText hi
    -- The text found for the name of the table reads as that name.
    refine ⟨attributes.toList, [_], Array.toList_push, forall₂_repaid_refl _, ?_⟩
    exact .inr ⟨Array.findIdx?_eq_none_iff.1 hplace, _, rfl, hread⟩

/-- The table of generic types is replaced in its place, which comes before what was added. -/
theorem nameTypes_ok {given : GivenNames} {attributes attributes₁ attributes' : Array Attribute}
    {kept added : List Attribute} (hsplit : attributes₁.toList = kept ++ added)
    (hkept : List.Forall₂ (Repaid s.source tableNames) attributes.toList kept)
    (h : nameTypes given attributes₁
      (attributes.findIdx? (Attribute.isNamed s.source "LocalVariableTypeTable")) =
        .ok attributes') :
    ∃ kept', attributes'.toList = kept' ++ added ∧
      List.Forall₂ (Repaid s.source tableNames) attributes.toList kept' := by
  cases hplace : attributes.findIdx? (Attribute.isNamed s.source "LocalVariableTypeTable") with
  | none =>
    rw [hplace] at h
    obtain rfl := Except.ok.inj h
    exact ⟨kept, hsplit, hkept⟩
  | some i =>
    rw [hplace] at h
    simp only [nameTypes, Except.bind_eq_ok, Except.pure_eq_ok] at h
    obtain ⟨types, -, data, -, rfl⟩ := h
    obtain ⟨a, ha, hname⟩ := getElem?_of_findIdx? hplace
    -- The table of types is one of those that may be replaced.
    have hmem : "LocalVariableTypeTable" ∈ tableNames := by simp [tableNames]
    rw [setPayload, Array.toList_modify, hsplit]
    exact exists_modify_append hkept ha hname hmem data added

/-- Replacing local variables in its steps: without new names a body stays as it is, else first the
table of names is put into its place and then that of types. -/
theorem replaceLocals_ok {naming : LocalPolicy} {code code' : Code}
    (h : s.replaceLocals naming code p = .ok code' q) :
    ∃ table r p₁,
      tableAt code.attributes
        (code.attributes.findIdx? (Attribute.isNamed s.source "LocalVariableTable")) = .ok table ∧
      s.renameTable naming code.code.length table p = .ok r p₁ ∧
      ((r = none ∧ code' = code ∧ q = p₁) ∨
        ∃ table' given data attributes attributes', r = some (table', given) ∧
          LocalVariable.encodeTable table' = .ok data ∧
          putTable code.attributes
            (code.attributes.findIdx? (Attribute.isNamed s.source "LocalVariableTable")) data p₁ =
              .ok attributes q ∧
          nameTypes given attributes
            (code.attributes.findIdx? (Attribute.isNamed s.source "LocalVariableTypeTable")) =
              .ok attributes' ∧
          code' = { code with attributes := attributes' }) := by
  simp only [Scope.replaceLocals, EStateM.bind_eq_ok, EStateM.ofExcept_eq_ok] at h
  obtain ⟨table, _, ⟨htable, rfl⟩, r, p₁, hr, h⟩ := h
  refine ⟨table, r, p₁, htable, hr, ?_⟩
  -- No answer names anything, or both tables are put into their places.
  cases r with
  | none =>
    obtain ⟨rfl, rfl⟩ := EStateM.pure_eq_ok.1 h
    exact .inl ⟨rfl, rfl, rfl⟩
  | some r =>
    simp only [EStateM.bind_eq_ok, EStateM.ofExcept_eq_ok, EStateM.pure_eq_ok] at h
    obtain ⟨data, _, ⟨hdata, rfl⟩, attributes, _, hput, attributes', _, ⟨htypes, rfl⟩, rfl, rfl⟩ := h
    exact .inr ⟨_, _, data, attributes, attributes', rfl, hdata, hput, htypes, rfl⟩

/-- Replacing local variables keeps a body but for its tables, and adds at most one. -/
theorem Ready.replaceLocals {naming : LocalPolicy} {code code' : Code} (hp : s.Ready p)
    (h : s.replaceLocals naming code p = .ok code' q) (hfinal : q.Extends final) :
    ∃ kept added, code' = { code with attributes := (kept ++ added).toArray } ∧
      List.Forall₂ (Repaid s.source tableNames) code.attributes.toList kept ∧
      (added = [] ∨ (∀ a ∈ code.attributes, a.isNamed s.source "LocalVariableTable" = false) ∧
        ∃ table, added = [table] ∧ final.utf8 table.nameIndex = .ok "LocalVariableTable") := by
  obtain ⟨table, r, p₁, -, hr, h⟩ := replaceLocals_ok h
  rcases h with ⟨-, rfl, -⟩ | ⟨_, _, _, attributes₁, attributes₂, -, -, hput, htypes, rfl⟩
  · refine ⟨_, [], ?_, forall₂_repaid_refl _, .inl rfl⟩
    rw [List.append_nil, Array.toArray_toList]
  · obtain ⟨hp₁, hext⟩ :=
      (onlyInterns_renameTable s naming _ table _ _ _ hr).coherent hp.coherent
    -- The table of names comes first and may add an attribute; that of types adds none.
    obtain ⟨kept, added, hsplit, hkept, hadded⟩ := (hp.of_extends hp₁ hext).putTable hput
    obtain ⟨kept', hsplit', hkept'⟩ := nameTypes_ok hsplit hkept htypes
    refine ⟨kept', added, ?_, hkept', ?_⟩
    · rw [← hsplit', Array.toArray_toList]
    · rcases hadded with rfl | ⟨hnone, table, rfl, hread⟩
      · exact .inl rfl
      · exact .inr ⟨hnone, table, rfl, hfinal.keeps.utf8 hread⟩

/-! ### Bodies -/

/-- Renaming inside a payload keeps attributes whose payloads are shorter than `depth`. -/
def KeepsNested (s : Scope) (final : Pool) (depth : Nat)
    (nested : Array Attribute → PoolM (Array Attribute)) : Prop :=
  ∀ attributes attributes' p q, (∀ a ∈ attributes, a.data.length < depth) → s.Ready p →
    nested attributes p = .ok attributes' q → q.Extends final →
    List.Forall₂ (AttributeKept s.settings s.source final)
      (keptAttributes s.settings s.source attributes) attributes'.toList

/-- A table of local variables is no frame, so it stays. -/
theorem mem_keptAttributes {settings : RelabelSettings} {attributes : Array Attribute}
    {a : Attribute} (ha : a ∈ attributes) (hname : p.utf8 a.nameIndex = .ok "LocalVariableTable") :
    a ∈ keptAttributes settings p attributes := by
  unfold keptAttributes withoutFrames
  split
  · refine List.mem_filter.2 ⟨Array.mem_toList_iff.2 ha, ?_⟩
    simp [Attribute.isNamed, hname]
  · exact Array.mem_toList_iff.2 ha

/-- A body that has no table of local variables after its attributes are renamed had none before. -/
theorem not_isNamed_of_forall₂ {settings : RelabelSettings} {before after : Array Attribute}
    (h : List.Forall₂ (AttributeKept settings p q) (keptAttributes settings p before) after.toList)
    (hafter : ∀ a ∈ after, a.isNamed p "LocalVariableTable" = false) (a : Attribute)
    (ha : a ∈ before) : a.isNamed p "LocalVariableTable" = false := by
  refine Bool.eq_false_iff.2 fun hnamed => ?_
  have hname := Attribute.isNamed_iff.1 hnamed
  obtain ⟨b, hb, hab⟩ := exists_of_mem_forall₂ h (mem_keptAttributes ha hname)
  have hb' := hafter b (Array.mem_toList_iff.1 hb)
  rw [← hab.nameIndex_eq] at hname
  rw [Attribute.isNamed_iff.2 hname] at hb'
  cases hb'

/-- A body keeps its instructions, limits and handlers, and its attributes as a list does. -/
theorem Ready.patchCode {depth : Nat} {nested : Array Attribute → PoolM (Array Attribute)}
    {a : Attribute} {data : Bytes} (hp : s.Ready p) (hnested : s.KeepsNested final depth nested)
    (hinterns : ∀ attributes, OnlyInterns (nested attributes)) (hlength : a.data.length ≤ depth)
    (hname : s.source.utf8 a.nameIndex = .ok "Code")
    (h : s.patchCode nested a.data p = .ok data q) (hfinal : q.Extends final) :
    AttributeKept s.settings s.source final a { a with data } := by
  simp only [Scope.patchCode, EStateM.bind_eq_ok, EStateM.ofExcept_eq_ok] at h
  obtain ⟨code, _, ⟨hcode, rfl⟩, attributes, p₁, hrun, h⟩ := h
  -- What stands in a payload is shorter than it, so the depth suffices one level down.
  have hshorter : ∀ b ∈ code.attributes, b.data.length < depth := fun b hb =>
    Nat.lt_of_lt_of_le (Code.length_lt_of_mem_attributes hcode hb) hlength
  obtain ⟨hp₁, hext⟩ := (hinterns _ _ _ _ hrun).coherent hp.coherent
  cases hlocals : s.settings.locals with
  | some naming =>
    simp only [hlocals, EStateM.bind_eq_ok, EStateM.ofExcept_eq_ok] at h
    obtain ⟨code', _, hreplace, hencode, rfl⟩ := h
    obtain ⟨-, hext'⟩ := (onlyInterns_replaceLocals s _ _ _ _ _ hreplace).coherent hp₁
    have hkept := hnested _ _ _ _ hshorter hp hrun (hext'.trans hfinal)
    obtain ⟨kept, added, rfl, hrepaid, hadded⟩ :=
      (hp.of_extends hp₁ hext).replaceLocals hreplace hfinal
    -- The tables that are replaced have been patched before, which allows for any payload.
    have htables : tableNames ⊆ patchedNames s.settings := by
      simp [tableNames, patchedNames]
    refine .code hname hcode (Code.decode_encode hencode)
      (forall₂_comp (fun _ _ _ hab hbc => hab.repaid htables hbc) hkept hrepaid) ?_
    rcases hadded with rfl | ⟨hnone, htable⟩
    · exact .inl rfl
    · exact .inr ⟨by rw [hlocals]; rfl, not_isNamed_of_forall₂ hkept hnone, htable⟩
  | none =>
    simp only [hlocals, EStateM.bind_eq_ok, EStateM.pure_eq_ok, EStateM.ofExcept_eq_ok] at h
    obtain ⟨_, _, ⟨rfl, rfl⟩, hencode, rfl⟩ := h
    have hkept := hnested _ _ _ _ hshorter hp hrun hfinal
    refine .code hname hcode ?_ hkept (.inl rfl)
    rw [List.append_nil, Array.toArray_toList]
    exact Code.decode_encode hencode

/-! ### Records -/

section Records

variable {depth : Nat} {nested : Array Attribute → PoolM (Array Attribute)} {st st' : PatchState}

/-- A component keeps its attributes. -/
def ComponentKept (s : Scope) (final : Pool) (c c' : RecordComponent) : Prop :=
  List.Forall₂ (AttributeKept s.settings s.source final)
    (keptAttributes s.settings s.source c.attributes) c'.attributes.toList

/-- One component is read, its two indices and its attributes are renamed, and it is written. -/
theorem patchComponent_eq_ok {r : Unit × PatchState}
    (h : s.patchComponent nested st p = .ok r q) :
    ∃ (c c' : RecordComponent) (key : MemberKey) (p₁ p₂ : Pool) (form : Bytes),
      RecordComponent.decoder st.input = .ok c r.2.input ∧
      newIndex (s.names.mapField key) c.nameIndex p = .ok c'.nameIndex p₁ ∧
      s.mapDescriptor c.descIndex p₁ = .ok c'.descIndex p₂ ∧
      nested c.attributes p₂ = .ok c'.attributes q ∧ c'.encode = .ok form ∧
      r.2.written = form.reverse ++ st.written := by
  simp only [Scope.patchComponent, Patch.bind_eq_ok, Patch.read_eq_ok, Patch.lift_eq_ok,
    -- Two indices are read, then both texts, and each new index is written before the attributes.
    Patch.ofExcept_eq_ok, Patch.write16, Patch.write_eq_ok, Scope.text, EStateM.ofExcept_eq_ok] at h
  obtain ⟨i, _, _, ⟨_, input₁, hi, ⟨⟩, rfl⟩, j, _, _, ⟨_, input₂, hj, ⟨⟩, rfl⟩, h⟩ := h
  obtain ⟨name, _, _, ⟨_, ⟨-, rfl⟩, ⟨⟩⟩, desc, _, _, ⟨_, ⟨-, rfl⟩, ⟨⟩⟩, h⟩ := h
  obtain ⟨i', _, _, ⟨_, hi', ⟨⟩⟩, _, _, _, ⟨⟨⟩, rfl⟩, h⟩ := h
  obtain ⟨j', _, _, ⟨_, hj', ⟨⟩⟩, _, _, _, ⟨⟨⟩, rfl⟩, h⟩ := h
  obtain ⟨attributes, _, _, ⟨_, input₃, hread, ⟨⟩, rfl⟩, h⟩ := h
  obtain ⟨attributes', _, _, ⟨_, hrun, ⟨⟩⟩, bytes, _, _, ⟨_, hencode, ⟨⟩, rfl⟩, rfl, rfl⟩ := h
  refine ⟨⟨i, j, attributes⟩, ⟨i', j', attributes'⟩, _, _, _,
    Bytes.ofUInt16 i' ++ (Bytes.ofUInt16 j' ++ bytes), ?_, hi', hj', hrun, ?_, ?_⟩
  · simp only [RecordComponent.decoder, EStateM.bind_eq_ok]
    exact ⟨i, input₁, hi, j, input₂, hj, attributes, input₃, hread, rfl⟩
  · rw [RecordComponent.encode, hencode]
    rfl
  · simp

/-- What is read and written for one component. -/
theorem Ready.patchComponent (hp : s.Ready p) (hnested : s.KeepsNested final depth nested)
    (hlength : st.input.rest.length ≤ depth)
    (h : s.patchComponent nested st p = .ok ((), st') q) (hfinal : q.Extends final) :
    ∃ c c' form, RecordComponent.decoder st.input = .ok c st'.input ∧
      st'.input.rest.length ≤ st.input.rest.length ∧ st'.written = form.reverse ++ st.written ∧
      RecordComponent.decoder.Reads form c' ∧ s.ComponentKept final c c' := by
  obtain ⟨c, c', key, p₁, p₂, form, hread, hname, hdesc, hrun, hform, hwritten⟩ :=
    patchComponent_eq_ok h
  -- The pool in which the attributes are renamed has seen two searches.
  have hinterns := (onlyInterns_newIndex _ _ _ _ _ hname).trans
    (onlyInterns_mapDescriptor s _ _ _ _ hdesc)
  obtain ⟨hp₂, hext⟩ := hinterns.coherent hp.coherent
  obtain ⟨hle, hshorter⟩ := RecordComponent.length_le_of_decoder hread
  refine ⟨c, c', form, hread, hle, hwritten, RecordComponent.reads_encode hform, ?_⟩
  refine hnested _ _ _ _ (fun a ha => ?_) (hp.of_extends hp₂ hext) hrun hfinal
  exact Nat.lt_of_lt_of_le (hshorter a ha) hlength

/-- What is read and written for a row of components. -/
theorem Ready.times_patchComponent (hp : s.Ready p) (hnested : s.KeepsNested final depth nested)
    (hinterns : ∀ attributes, OnlyInterns (nested attributes))
    (hlength : st.input.rest.length ≤ depth) {n : Nat}
    (h : Patch.times (s.patchComponent nested) n st p = .ok ((), st') q)
    (hfinal : q.Extends final) :
    ∃ cs cs' forms,
      (∀ read, ∃ input, Decoder.repeatFrom RecordComponent.decoder n read st.input =
        .ok (read ++ cs.toArray) input) ∧
      cs'.length = n ∧ st'.written = forms.flatten.reverse ++ st.written ∧
      List.Forall₂ (fun c form => RecordComponent.decoder.Reads form c) cs' forms ∧
      List.Forall₂ (s.ComponentKept final) cs cs' := by
  induction n generalizing st p with
  | zero =>
    obtain ⟨⟨⟩, rfl⟩ := Patch.pure_eq_ok.1 h
    exact ⟨[], [], [], fun read => ⟨_, by simp [Decoder.repeatFrom]; rfl⟩, rfl, rfl, .nil, .nil⟩
  | succ n ih =>
    simp only [Patch.times, Patch.bind_eq_ok] at h
    obtain ⟨⟨⟩, st₁, p₁, hfirst, hrest⟩ := h
    -- Later components only add names, so what an earlier one interned is kept.
    have honly := onlyInterns_patchComponent s hinterns
    obtain ⟨hp₁, hext⟩ := (honly st _ _ _ hfirst).coherent hp.coherent
    obtain ⟨-, hext'⟩ := (Patch.OnlyInterns.times honly n st₁ _ _ _ hrest).coherent hp₁
    obtain ⟨c, c', form, hread, hle, hwritten, hreads, hkept⟩ :=
      hp.patchComponent hnested hlength hfirst (hext'.trans hfinal)
    obtain ⟨cs, cs', forms, hreadRest, hlengthRest, hwrittenRest, hreadsRest, hkeptRest⟩ :=
      ih (hp.of_extends hp₁ hext) (Nat.le_trans hle hlength) hrest
    refine ⟨c :: cs, c' :: cs', form :: forms, ?_, ?_, ?_, .cons hreads hreadsRest,
      .cons hkept hkeptRest⟩
    · intro read
      obtain ⟨input, hinput⟩ := hreadRest (read.push c)
      refine ⟨input, ?_⟩
      rw [List.push_append_toArray] at hinput
      exact EStateM.bind_eq_ok.2 ⟨c, st₁.input, hread, hinput⟩
    · rw [List.length_cons, hlengthRest]
    · rw [hwrittenRest, hwritten, List.flatten_cons, List.reverse_append, List.append_assoc]

/-- A record keeps the attributes of its components. -/
theorem Ready.patchRecord {a : Attribute} {data : Bytes} (hp : s.Ready p)
    (hnested : s.KeepsNested final depth nested)
    (hinterns : ∀ attributes, OnlyInterns (nested attributes)) (hlength : a.data.length ≤ depth)
    (hname : s.source.utf8 a.nameIndex = .ok "Record")
    (h : (Patch.counted (s.patchComponent nested)).runFront a.data p = .ok data q)
    (hfinal : q.Extends final) : AttributeKept s.settings s.source final a { a with data } := by
  obtain ⟨n, input, st, hn, htimes, rfl⟩ := Patch.runFront_counted_eq_ok h
  have hle := Decoder.shrinks_u16 _ _ _ hn
  obtain ⟨cs, cs', forms, hread, hcount, hwritten, hreads, hkept⟩ :=
    hp.times_patchComponent hnested hinterns (Nat.le_trans hle hlength) htimes hfinal
  -- What patching reads is what the decoder reads.
  have hbefore : RecordComponent.decodeList a.data = .ok cs.toArray := by
    obtain ⟨input', hinput'⟩ := hread #[]
    rw [Array.empty_append] at hinput'
    have hall : Decoder.counted RecordComponent.decoder { rest := a.data } =
        .ok cs.toArray input' :=
      EStateM.bind_eq_ok.2 ⟨n, input, hn, hinput'⟩
    exact Decoder.decode_eq_ok_iff.2 ⟨_, hall⟩
  -- What patching writes, the decoder reads back.
  have hafter : RecordComponent.decodeList st.written.reverse = .ok cs'.toArray := by
    have hcount' : n.toNat = cs'.toArray.size := by simp [hcount]
    rw [hwritten, List.reverse_append, List.reverse_reverse, List.reverse_reverse]
    exact (Decoder.reads_counted hcount' hreads).decode
  refine .record hname hbefore hafter ?_
  rw [List.forall₂_map_left_iff, List.forall₂_map_right_iff]
  exact hkept

end Records

/-! ### Lists of attributes -/

/-- An attribute that names nothing keeps its payload. -/
theorem patchPayload_eq_pure {nested : Array Attribute → PoolM (Array Attribute)} {name : String}
    (hpatched : name ∉ patchedNames s.settings) (hcode : name ≠ "Code") (hrecord : name ≠ "Record")
    (data : Bytes) : s.patchPayload nested name data = pure data := by
  unfold Scope.patchPayload
  split
  case h_2 => exact absurd rfl hcode
  case h_7 => exact absurd rfl hrecord
  case h_15 => rfl
  all_goals simp [patchedNames] at hpatched

/-- A patched payload keeps its attribute as `AttributeKept` says. -/
theorem Ready.patchPayload {depth : Nat} {nested : Array Attribute → PoolM (Array Attribute)}
    {a : Attribute} {name : String} {data : Bytes} (hp : s.Ready p)
    (hnested : s.KeepsNested final depth nested)
    (hinterns : ∀ attributes, OnlyInterns (nested attributes)) (hlength : a.data.length ≤ depth)
    (hname : s.source.utf8 a.nameIndex = .ok name)
    (h : s.patchPayload nested name a.data p = .ok data q) (hfinal : q.Extends final) :
    AttributeKept s.settings s.source final a { a with data } := by
  -- A body, a record, any other payload that is patched, and one that is not.
  by_cases hcode : name = "Code"
  · subst hcode
    exact hp.patchCode hnested hinterns hlength hname h hfinal
  by_cases hrecord : name = "Record"
  · subst hrecord
    exact hp.patchRecord hnested hinterns hlength hname h hfinal
  by_cases hpatched : name ∈ patchedNames s.settings
  · exact .patched hname hpatched
  · rw [patchPayload_eq_pure hpatched hcode hrecord] at h
    obtain ⟨rfl, -⟩ := EStateM.pure_eq_ok.1 h
    exact .same hname hpatched hcode hrecord

/-- The frames go before anything is patched. -/
theorem keptAttributes_eq (attributes : Array Attribute) :
    keptAttributes s.settings s.source attributes =
      (if s.settings.removeFrames then attributes.filter (!s.isFrames ·) else attributes).toList := by
  unfold keptAttributes withoutFrames isFrames
  split
  · rw [Array.toList_filter]
  · rfl

/-- What becomes of one attribute among others: its payload is patched, as its name says. -/
def Patched (s : Scope) (final : Pool) (depth : Nat) (a a' : Attribute) : Prop :=
  ∃ name data p q, s.source.utf8 a.nameIndex = .ok name ∧ s.Ready p ∧
    s.patchPayload (s.renameAttributesTo depth) name a.data p = .ok data q ∧ q.Extends final ∧
    a' = { a with data }

/-- The attributes that stay are patched one by one. -/
theorem Ready.forall₂_patched {depth : Nat} {attributes attributes' : Array Attribute}
    (hp : s.Ready p) (h : s.renameAttributesTo (depth + 1) attributes p = .ok attributes' q)
    (hfinal : q.Extends final) : List.Forall₂ (s.Patched final depth)
      (keptAttributes s.settings s.source attributes) attributes'.toList := by
  rw [keptAttributes_eq]
  refine hp.forall₂_mapM (fun a _ => ?_) ?_ h hfinal
  -- Each attribute only interns, so what was read of the source stays.
  · refine .bind (onlyInterns_text s _) fun name => ?_
    exact .bind (onlyInterns_patchPayload s (onlyInterns_renameAttributesTo s depth) _ _)
      fun data => .pure _
  · intro a _ p a' q hp ha' hext
    simp only [EStateM.bind_eq_ok, Scope.text, EStateM.ofExcept_eq_ok, EStateM.pure_eq_ok] at ha'
    obtain ⟨name, _, ⟨hname, rfl⟩, data, _, hdata, rfl, rfl⟩ := ha'
    exact ⟨name, data, p, _, hname, hp, hdata, hext, rfl⟩

/-- A renaming keeps attributes level by level. -/
theorem keepsNested_renameAttributesTo (depth : Nat) :
    s.KeepsNested final depth (s.renameAttributesTo depth) := by
  induction depth with
  | zero =>
    intro attributes attributes' p q hshorter _ h _
    -- No payload is shorter than nothing.
    obtain rfl : attributes = #[] :=
      Array.eq_empty_iff_forall_not_mem.2 fun a ha => Nat.not_lt_zero _ (hshorter a ha)
    obtain ⟨rfl, -⟩ := EStateM.pure_eq_ok.1 h
    simp [keptAttributes, withoutFrames]
  | succ depth ih =>
    intro attributes attributes' p q hshorter hp h hfinal
    have hmem : ∀ a ∈ keptAttributes s.settings s.source attributes, a ∈ attributes :=
      fun a ha => mem_of_mem_keptAttributes ha
    refine ((List.forall₂_and_left _ _).2 ⟨hmem, hp.forall₂_patched h hfinal⟩).imp ?_
    rintro a _ ⟨ha, name, data, p, q, hname, hp, hdata, hext, rfl⟩
    exact hp.patchPayload ih (onlyInterns_renameAttributesTo s depth)
      (Nat.le_of_lt_succ (hshorter a ha)) hname hdata hext

/-- The longest payload is at least as long as each. -/
private theorem length_le_foldl_max {attributes : List Attribute} (n : Nat) :
    n ≤ attributes.foldl (fun n a => max n a.data.length) n ∧
      ∀ a ∈ attributes, a.data.length ≤ attributes.foldl (fun n a => max n a.data.length) n := by
  induction attributes generalizing n with
  | nil => simp
  | cons b rest ih =>
    obtain ⟨hn, hrest⟩ := ih (max n b.data.length)
    rw [List.foldl_cons]
    refine ⟨by omega, fun a ha => ?_⟩
    -- The first attribute counts towards the maximum, the others by induction.
    rcases List.mem_cons.1 ha with rfl | ha
    · omega
    · exact hrest a ha

/-- No payload in a list is longer than the depth to which it is renamed. -/
theorem length_le_depth {attributes : Array Attribute} {a : Attribute} (ha : a ∈ attributes) :
    a.data.length ≤ attributes.foldl (fun n a => max n a.data.length) 0 := by
  rw [← Array.foldl_toList]
  exact (length_le_foldl_max 0).2 a (Array.mem_toList_iff.2 ha)

/-- A renaming keeps a list of attributes. -/
theorem Ready.renameAttributes {attributes attributes' : Array Attribute} (hp : s.Ready p)
    (h : s.renameAttributes attributes p = .ok attributes' q) (hfinal : q.Extends final) :
    List.Forall₂ (AttributeKept s.settings s.source final)
      (keptAttributes s.settings s.source attributes) attributes'.toList :=
  keepsNested_renameAttributesTo _ _ _ _ _ (fun _ ha => Nat.lt_succ_of_le (length_le_depth ha)) hp h
    hfinal

/-- Naming the source file replaces at most one payload. -/
theorem nameSourceFile_ok {attributes attributes' : Array Attribute}
    (h : s.nameSourceFile attributes p = .ok attributes' q) :
    List.Forall₂ (Repaid s.source ["SourceFile"]) attributes.toList attributes'.toList := by
  unfold nameSourceFile at h
  cases hplace : attributes.findIdx? (Attribute.isNamed s.source "SourceFile") with
  | none =>
    rw [hplace] at h
    obtain ⟨rfl, -⟩ := EStateM.pure_eq_ok.1 h
    exact forall₂_repaid_refl _
  | some i =>
    rw [hplace] at h
    -- A payload that is no index is refused.
    rcases hdata : payload attributes i with _ | ⟨high, _ | ⟨low, _ | ⟨_, _⟩⟩⟩ <;>
      simp only [hdata, EStateM.throw_eq_ok, EStateM.bind_eq_ok, EStateM.pure_eq_ok] at h
    obtain ⟨_, _, -, j, _, -, rfl, -⟩ := h
    obtain ⟨a, ha, hname⟩ := getElem?_of_findIdx? hplace
    obtain ⟨kept, heq, hkept⟩ := exists_modify_append (forall₂_repaid_refl _) ha hname
      (List.mem_singleton_self _) (Bytes.ofUInt16 j) []
    rw [List.append_nil, List.append_nil] at heq
    rw [setPayload, Array.toList_modify, heq]
    exact hkept

end Scope

end Relabel
