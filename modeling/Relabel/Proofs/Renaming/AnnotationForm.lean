import Relabel.Proofs.Renaming.Attributes
import Relabel.Proofs.Renaming.WellFormed

/-!
# The form of annotations

A payload with annotations is a row of fields. Most of them name nothing: tags, counts, the places
of type annotations and the indices of constants. The others are indices of descriptors, of names of
elements and of names of constants of enumerations. Which fields may stand where is given here as a
grammar that mentions no reader, and so is what a renaming puts in the place of each field.

## Main definitions

- `AnnotationField.IsAnnotation`, `AnnotationField.IsValue`: annotations and values, to any depth.
- `AnnotationField.IsTarget`: the places of type annotations.
- `AnnotationField.IsPayload`: the payloads of attributes that hold annotations.
- `AnnotationField.Renamed`: what stands in the place of a field.
- `AnnotationsRenamed`: what becomes of an attribute.
-/

namespace Relabel

/-- A part of a payload with annotations. -/
inductive AnnotationField where
  /-- Bytes that name nothing. -/
  | fixed (bytes : Bytes)
  /-- The index of a descriptor. -/
  | desc (i : UInt16)
  /-- The name of an element, with the descriptor of its annotation. -/
  | element (type i : UInt16)
  /-- The name of a constant, with the descriptor of its enumeration. -/
  | constant (type i : UInt16)
  deriving DecidableEq, Repr

namespace AnnotationField

/-- The bytes of a field. -/
def bytes : AnnotationField → Bytes
  | fixed bytes => bytes
  | desc i | element _ i | constant _ i => Bytes.ofUInt16 i

/-- The bytes of a row of fields. -/
def form (fields : List AnnotationField) : Bytes :=
  fields.flatMap bytes

@[simp]
theorem form_nil : form [] = [] := rfl

@[simp]
theorem form_cons (field : AnnotationField) (fields : List AnnotationField) :
    form (field :: fields) = field.bytes ++ form fields :=
  List.flatMap_cons

@[simp]
theorem form_append (fields fields' : List AnnotationField) :
    form (fields ++ fields') = form fields ++ form fields' :=
  List.flatMap_append

/-! ### Annotations and values -/

/-- The tag of a value. -/
def tag (c : Char) : AnnotationField :=
  fixed [c.toNat.toUInt8]

/-- A count of 16 bits and as many items. -/
def row (items : List (List AnnotationField)) : List AnnotationField :=
  fixed (Bytes.ofUInt16 items.length.toUInt16) :: items.flatten

mutual

/-- The type of an annotation, and a row of elements. -/
inductive IsAnnotation : List AnnotationField → Prop
  | intro {type : UInt16} {elements : List (List AnnotationField)} :
    elements.length < 65536 →
    (∀ element ∈ elements, IsElement type element) →
    IsAnnotation (desc type :: row elements)

/-- The name of an element and its value. -/
inductive IsElement : UInt16 → List AnnotationField → Prop
  | intro {type name : UInt16} {value : List AnnotationField} :
    IsValue value →
    IsElement type (element type name :: value)

/-- A tag, and what it says: a constant, a constant of an enumeration, a class, an annotation or a
row of values. -/
inductive IsValue : List AnnotationField → Prop
  | constant {c : Char} {i : UInt16} :
    c ∈ ['B', 'C', 'D', 'F', 'I', 'J', 'S', 'Z', 's'] →
    IsValue [tag c, fixed (Bytes.ofUInt16 i)]
  | enumConstant {type name : UInt16} :
    IsValue [tag 'e', desc type, constant type name]
  | ofClass {i : UInt16} :
    IsValue [tag 'c', desc i]
  | annotation {fields : List AnnotationField} :
    IsAnnotation fields →
    IsValue (tag '@' :: fields)
  | array {values : List (List AnnotationField)} :
    values.length < 65536 →
    (∀ value ∈ values, IsValue value) →
    IsValue (tag '[' :: row values)

end

/-! ### Places of type annotations -/

/-- A kind of place with its details. -/
inductive IsTarget : List AnnotationField → Prop
  | typeParameter {kind i : UInt8} :
    kind = 0x00 ∨ kind = 0x01 →
    IsTarget [fixed [kind], fixed [i]]
  | supertype {i : UInt16} :
    IsTarget [fixed [0x10], fixed (Bytes.ofUInt16 i)]
  | typeParameterBound {kind i bound : UInt8} :
    kind = 0x11 ∨ kind = 0x12 →
    IsTarget [fixed [kind], fixed [i, bound]]
  | memberType {kind : UInt8} :
    kind = 0x13 ∨ kind = 0x14 ∨ kind = 0x15 →
    IsTarget [fixed [kind]]
  | formalParameter {i : UInt8} :
    IsTarget [fixed [0x16], fixed [i]]
  | thrown {i : UInt16} :
    IsTarget [fixed [0x17], fixed (Bytes.ofUInt16 i)]
  | localVariable {kind : UInt8} {table : List (UInt16 × UInt16 × UInt16)} :
    kind = 0x40 ∨ kind = 0x41 →
    table.length < 65536 →
    IsTarget [fixed [kind], fixed (Bytes.ofUInt16 table.length.toUInt16),
      fixed (table.flatMap fun (start, length, i) =>
        Bytes.ofUInt16 start ++ Bytes.ofUInt16 length ++ Bytes.ofUInt16 i)]
  | caught {i : UInt16} :
    IsTarget [fixed [0x42], fixed (Bytes.ofUInt16 i)]
  | instruction {kind : UInt8} {offset : UInt16} :
    kind = 0x43 ∨ kind = 0x44 ∨ kind = 0x45 ∨ kind = 0x46 →
    IsTarget [fixed [kind], fixed (Bytes.ofUInt16 offset)]
  | typeArgument {kind i : UInt8} {offset : UInt16} :
    kind = 0x47 ∨ kind = 0x48 ∨ kind = 0x49 ∨ kind = 0x4a ∨ kind = 0x4b →
    IsTarget [fixed [kind], fixed (Bytes.ofUInt16 offset ++ [i])]

/-- A path into a type: a count of 8 bits and as many steps. -/
inductive IsPath : List AnnotationField → Prop
  | intro {steps : List (UInt8 × UInt8)} :
    steps.length < 256 →
    IsPath [fixed [steps.length.toUInt8], fixed (steps.flatMap fun (kind, i) => [kind, i])]

/-! ### Payloads -/

/-- A row of items of one form. -/
inductive IsRow (P : List AnnotationField → Prop) : List AnnotationField → Prop
  | intro {items : List (List AnnotationField)} :
    items.length < 65536 →
    (∀ item ∈ items, P item) →
    IsRow P (row items)

/-- A place, a path and an annotation. -/
inductive IsTypeAnnotation : List AnnotationField → Prop
  | intro {target path annotation : List AnnotationField} :
    IsTarget target →
    IsPath path →
    IsAnnotation annotation →
    IsTypeAnnotation (target ++ path ++ annotation)

/-- The payload of an attribute with this name. -/
inductive IsPayload : String → List AnnotationField → Prop
  | annotations {name : String} {fields : List AnnotationField} :
    name = "RuntimeVisibleAnnotations" ∨ name = "RuntimeInvisibleAnnotations" →
    IsRow IsAnnotation fields →
    IsPayload name fields
  | parameterAnnotations {name : String} {params : List (List AnnotationField)} :
    name = "RuntimeVisibleParameterAnnotations" ∨
      name = "RuntimeInvisibleParameterAnnotations" →
    params.length < 256 →
    (∀ param ∈ params, IsRow IsAnnotation param) →
    IsPayload name (fixed [params.length.toUInt8] :: params.flatten)
  | typeAnnotations {name : String} {fields : List AnnotationField} :
    name = "RuntimeVisibleTypeAnnotations" ∨
      name = "RuntimeInvisibleTypeAnnotations" →
    IsRow IsTypeAnnotation fields →
    IsPayload name fields
  | default {fields : List AnnotationField} :
    IsValue fields →
    IsPayload "AnnotationDefault" fields

/-- The name of a source file is no annotation. -/
theorem IsPayload.ne_sourceFile {name : String} {fields : List AnnotationField}
    (h : IsPayload name fields) : name ≠ "SourceFile" := by
  cases h with
  | annotations hname => rcases hname with rfl | rfl <;> decide
  | parameterAnnotations hname => rcases hname with rfl | rfl <;> decide
  | typeAnnotations hname => rcases hname with rfl | rfl <;> decide
  | default => decide

/-! ### What becomes of a field -/

/-- The index `j` takes the place of `i`, the index of a text that has this new form, if any. What
`j` reads as in the pool `q` after is only known where all slots of the pool `p` before have
indices. -/
inductive Replaces (p q : Pool) (i : UInt16) : Option String → UInt16 → Prop
  | same : Replaces p q i none i
  | new {text : String} {j : UInt16} :
    (p.Searchable → q.utf8 j = .ok text) →
    Replaces p q i (some text) j

/-- What stands in the place of a field, where `p` is the pool before and `q` the pool after. -/
inductive Renamed (names : Renaming) (p q : Pool) : AnnotationField → Bytes → Prop
  | fixed {bytes : Bytes} :
    Renamed names p q (.fixed bytes) bytes
  | desc {i j : UInt16} {old : String} :
    p.utf8 i = .ok old →
    Replaces p q i (some (names.mapDescriptor old)) j →
    Renamed names p q (.desc i) (Bytes.ofUInt16 j)
  | element {type i j : UInt16} {desc name : String} :
    p.utf8 type = .ok desc →
    p.utf8 i = .ok name →
    Replaces p q i (names.mapElement desc name) j →
    Renamed names p q (.element type i) (Bytes.ofUInt16 j)
  | constant {type i j : UInt16} {desc name : String} :
    p.utf8 type = .ok desc →
    p.utf8 i = .ok name →
    Replaces p q i ((Descriptor.className? desc).bind fun owner =>
      names.mapField { owner, name, desc }) j →
    Renamed names p q (.constant type i) (Bytes.ofUInt16 j)

variable {names : Renaming} {p q : Pool}

theorem Renamed.length_eq {field : AnnotationField} {piece : Bytes}
    (h : field.Renamed names p q piece) : piece.length = field.bytes.length := by
  cases h <;> rfl

/-- Pieces in the place of fields take up as much. -/
theorem length_flatten {fields : List AnnotationField} {pieces : List Bytes}
    (h : List.Forall₂ (Renamed names p q) fields pieces) :
    pieces.flatten.length = (form fields).length := by
  induction h with
  | nil => rfl
  | cons hpiece _ ih => rw [List.flatten_cons, form_cons, List.length_append, List.length_append,
      hpiece.length_eq, ih]

/-- The piece in the place of a field stands where the field stood. -/
theorem renamed_take_drop {before after : List AnnotationField} {field : AnnotationField}
    {pieces : List Bytes}
    (h : List.Forall₂ (Renamed names p q) (before ++ field :: after) pieces) (rest : Bytes) :
    field.Renamed names p q
      (((pieces.flatten ++ rest).drop (form before).length).take field.bytes.length) := by
  induction before generalizing pieces with
  | nil =>
    obtain ⟨piece, pieces, hpiece, -, rfl⟩ := List.forall₂_cons_left_iff.1 h
    rw [List.flatten_cons, List.append_assoc]
    simpa [← hpiece.length_eq] using hpiece
  | cons first before ih =>
    obtain ⟨piece, pieces, hpiece, hrest, rfl⟩ := List.forall₂_cons_left_iff.1 h
    -- The pieces in front are as long as the fields that they stand for.
    have hdrop : (((piece :: pieces).flatten ++ rest).drop (form (first :: before)).length) =
        (pieces.flatten ++ rest).drop (form before).length := by
      rw [form_cons, List.length_append, ← hpiece.length_eq, ← List.drop_drop, List.flatten_cons,
        List.append_assoc, List.drop_left]
    rw [hdrop]
    exact ih hrest

end AnnotationField

open AnnotationField

/-- What becomes of a payload that starts with these fields: it keeps its length and what follows
the fields, and each of them is replaced where it stands, inside the payload. -/
structure PayloadRenamed (names : Renaming) (p q : Pool) (fields : List AnnotationField)
    (data data' : Bytes) : Prop where
  length_eq : data'.length = data.length
  drop_eq : data'.drop (form fields).length = data.drop (form fields).length
  renamed {before after : List AnnotationField} {field : AnnotationField} :
    fields = before ++ field :: after →
    (form before).length + field.bytes.length ≤ data.length ∧
      field.Renamed names p q ((data'.drop (form before).length).take field.bytes.length)

/-- A payload is renamed where each of its fields is. -/
theorem PayloadRenamed.of_forall₂ {names : Renaming} {p q : Pool} {fields : List AnnotationField}
    {pieces : List Bytes} (h : List.Forall₂ (Renamed names p q) fields pieces) (rest : Bytes) :
    PayloadRenamed names p q fields (form fields ++ rest) (pieces.flatten ++ rest) where
  length_eq := by
    rw [List.length_append, List.length_append, length_flatten h]
  drop_eq := by
    rw [List.drop_left, ← length_flatten h, List.drop_left]
  renamed := by
    rintro before after field rfl
    refine ⟨?_, renamed_take_drop h rest⟩
    simp only [form_append, form_cons, List.length_append]
    omega

/-- What becomes of an attribute: it keeps its name, and a payload with annotations is renamed field
by field. -/
structure AnnotationsRenamed (names : Renaming) (p q : Pool) (a a' : Attribute) : Prop where
  nameIndex_eq : a'.nameIndex = a.nameIndex
  payload {name : String} {fields : List AnnotationField} {rest : Bytes} :
    p.utf8 a.nameIndex = .ok name →
    IsPayload name fields →
    a.data = form fields ++ rest →
    PayloadRenamed names p q fields a.data a'.data

/-- What becomes of the attributes of a member. -/
def MemberInfo.AnnotationsRenamed (names : Renaming) (settings : RelabelSettings) (p q : Pool)
    (m m' : MemberInfo) : Prop :=
  List.Forall₂ (Relabel.AnnotationsRenamed names p q) (keptAttributes settings p m.attributes)
    m'.attributes.toList

end Relabel
