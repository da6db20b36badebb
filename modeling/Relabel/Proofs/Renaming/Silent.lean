import Relabel.Proofs.Mapping.Signatures
import Relabel.Proofs.Renaming.Attributes
import Relabel.Proofs.Renaming.Copies

/-!
# Renamings that rename nothing

A renaming without new names leaves a class as it is, to the last byte of its attributes: no text is
searched for, and each index is written in the place it was read from. Bodies, tables of local
variables and records are the exception, since they are written anew from what was read, so they
must have been read to their ends. The other exception is a method type, which is always put into
its slot again: a slot past the last index of 16 bits shares its number with an earlier one.

## Main results

- `Scope.Idle.leaves_renameAttributes`: lists of attributes, to any depth.
- `Scope.Idle.mapPool_eq`: the pool.
- `ClassFile.relabel_eq_self`: a class is left as it is.
-/

namespace Relabel

open Pool (Leaves)

/-! ### Nothing to rename -/

/-- The renaming gives no answers of its own about references, descriptors and signatures: they are
renamed class by class. -/
structure Renaming.FollowsClasses (r : Renaming) : Prop where
  mapReference_eq : r.mapReference = Descriptor.renameReference r.mapClass
  mapDescriptor_eq : r.mapDescriptor = Descriptor.rename r.mapClass
  mapSignature_eq : r.mapSignature = Signature.rename r.mapClass

/-- No class, member or element has a new name, and nothing becomes public. -/
structure Renaming.Silent (r : Renaming) : Prop extends r.FollowsClasses where
  mapClass : ∀ name, r.mapClass name = none
  mapField : ∀ key, r.mapField key = none
  mapMethod : ∀ key, r.mapMethod key = none
  mapElement : ∀ type name, r.mapElement type name = none
  publishesMember : ∀ kind key, r.publishesMember kind key = false
  publishesClass : ∀ name, r.publishesClass name = false

/-- The renaming that is told nothing renames nothing. -/
theorem Renaming.silent_default : ({} : Renaming).Silent where
  mapReference_eq := rfl
  mapDescriptor_eq := rfl
  mapSignature_eq := rfl
  mapClass _ := rfl
  mapField _ := rfl
  mapMethod _ := rfl
  mapElement _ _ := rfl
  publishesMember _ _ := rfl
  publishesClass _ := rfl

namespace Renaming.Silent

variable {r : Renaming} (h : r.Silent)

include h

theorem mapClass_eq : r.mapClass = fun _ => none :=
  funext h.mapClass

/-- No member of either kind has a new name. -/
theorem mapMember (kind : MemberKind) (key : MemberKey) : r.mapMember kind key = none := by
  cases kind with
  | field => exact h.mapField key
  | method => exact h.mapMethod key

/-- A descriptor in which no class has a new name stays. -/
theorem mapDescriptor (desc : String) : r.mapDescriptor desc = desc := by
  rw [h.mapDescriptor_eq, h.mapClass_eq, Descriptor.rename_none]

/-- A signature in which no class has a new name stays. -/
theorem mapSignature (text : String) : r.mapSignature text = text := by
  rw [h.mapSignature_eq, h.mapClass_eq, Signature.rename_none]

/-- A reference stays, whether it is a class name or the descriptor of an array. -/
theorem mapReference (name : String) : r.mapReference name = none := by
  rw [h.mapReference_eq, h.mapClass_eq]
  unfold Descriptor.renameReference
  split
  · exact if_pos (Descriptor.rename_none name)
  · rfl

end Renaming.Silent

/-! ### Payloads that are written anew -/

/-- The attributes whose payloads are written anew from what was read of them. -/
def parsedNames : List String :=
  "Code" :: "Record" :: Scope.tableNames

/-- The payload is read to its end, if it is one that is written anew, and so are the payloads
inside it. -/
inductive Attribute.ReadToEnd (p : Pool) : Attribute → Prop
  | code {a : Attribute} {code : Code} {offset : Nat} :
    p.utf8 a.nameIndex = .ok "Code" →
    Code.decoder { rest := a.data } = .ok code { rest := [], offset } →
    (∀ b ∈ code.attributes, ReadToEnd p b) → ReadToEnd p a
  | record {a : Attribute} {components : Array RecordComponent} {offset : Nat} :
    p.utf8 a.nameIndex = .ok "Record" →
    Decoder.counted RecordComponent.decoder { rest := a.data } =
      .ok components { rest := [], offset } →
    (∀ c ∈ components, ∀ b ∈ c.attributes, ReadToEnd p b) → ReadToEnd p a
  | table {a : Attribute} {name : String} {table : Array LocalVariable} {offset : Nat} :
    p.utf8 a.nameIndex = .ok name → name ∈ Scope.tableNames →
    Decoder.counted LocalVariable.decoder { rest := a.data } =
      .ok table { rest := [], offset } → ReadToEnd p a
  | other {a : Attribute} :
    (∀ name ∈ parsedNames, p.utf8 a.nameIndex ≠ .ok name) → ReadToEnd p a

/-- A component is taken in the form it is written in. -/
theorem RecordComponent.takes_decoder : decoder.Takes fun c taken => c.encode = .ok taken := by
  refine Decoder.takes_u16.bind ?_
  rintro nameIndex _ rfl
  refine Decoder.takes_u16.bind ?_
  rintro descIndex _ rfl
  refine (Attribute.takes_decodeList .componentAttributes).map ?_
  intro attributes form hform
  rw [encode, hform]
  rfl

namespace Scope

open Patch

variable {s : Scope} {p q : Pool} {α : Type}

/-- The scope of a renaming that renames nothing and of which nothing else is asked. -/
structure Idle (s : Scope) : Prop where
  names : s.names.Silent
  settings : s.settings = {}

/-! ### Old names -/

/-- A text of the source is looked up, and nothing changes. -/
theorem leaves_text (i : UInt16) : Leaves (s.text i) fun old => s.source.utf8 i = .ok old :=
  .ofExcept fun _ h => h

/-- Without a new name the index stays. -/
theorem leaves_newIndex {new : Option String} (h : new = none) (i : UInt16) :
    Leaves (newIndex new i) (· = i) := by
  rw [h]
  exact .pure rfl

/-- A text that is its own new form keeps its index. -/
theorem leaves_mapText {f : String → String} (hf : ∀ text, f text = text) (i : UInt16) :
    Leaves (s.mapText f i) (· = i) := by
  refine (leaves_text i).bind fun old _ => ?_
  dsimp only
  rw [if_pos (hf old)]
  exact .pure rfl

namespace Idle

variable (hs : s.Idle)

include hs

/-- Descriptors keep their indices. -/
theorem leaves_mapDescriptor (i : UInt16) : Leaves (s.mapDescriptor i) (· = i) :=
  leaves_mapText hs.names.mapDescriptor i

/-- So do signatures. -/
theorem leaves_mapSignature (i : UInt16) : Leaves (s.mapSignature i) (· = i) :=
  leaves_mapText hs.names.mapSignature i

/-- A name and type without a new name is left alone. -/
theorem leaves_changedNames (name desc : String) {newName : Option String} (h : newName = none) :
    Leaves (s.changedNames name desc newName) (· = none) := by
  unfold changedNames
  dsimp only
  rw [if_pos ⟨by rw [h]; rfl, hs.names.mapDescriptor desc⟩]
  exact .pure rfl

/-! ### Annotations -/

/-- The descriptor of an annotation is written as it was read. -/
theorem copies_patchDesc : Copies s.patchDesc := by
  refine Owes.read16_bind fun i => Owes.lift_bind (leaves_text i) fun old _ => ?_
  refine Owes.lift_bind (hs.leaves_mapDescriptor i) ?_
  rintro _ rfl
  exact Owes.write16_bind (Copies.pure old)

/-- So is an enum constant. -/
theorem copies_patchEnum : Copies s.patchEnum := by
  refine Owes.read16_bind fun i => Owes.read16_bind fun j => ?_
  refine Owes.lift_bind (leaves_text i) fun type _ => ?_
  refine Owes.lift_bind (leaves_text j) fun name _ => ?_
  -- No field is renamed, so the constant keeps its name.
  have hname : ((Descriptor.className? type).bind fun owner =>
      s.names.mapField { owner, name, desc := type }) = none := by
    simp [hs.names.mapField]
  refine Owes.lift_bind (leaves_newIndex hname j) ?_
  rintro _ rfl
  refine Owes.lift_bind (hs.leaves_mapDescriptor i) ?_
  rintro _ rfl
  exact Owes.write16_bind Owes.write16

/-- Annotations nest in values and values in annotations, so both go down one level at a time. -/
theorem copies_patchAnnotation_patchValue (depth : Nat) :
    Copies (s.patchAnnotation depth) ∧ Copies (s.patchValue depth) := by
  induction depth with
  | zero =>
    unfold patchAnnotation patchValue
    exact ⟨.stop, .stop⟩
  | succ depth ih =>
    obtain ⟨hinner, hvalue⟩ := ih
    constructor
    · unfold patchAnnotation
      refine hs.copies_patchDesc.bind fun type => Copies.counted ?_
      refine Owes.read16_bind fun i => Owes.lift_bind (leaves_text i) fun name _ => ?_
      refine Owes.lift_bind (leaves_newIndex (hs.names.mapElement type name) i) ?_
      rintro _ rfl
      exact Owes.write16_bind hvalue
    · unfold patchValue
      refine Copies.copy8.bind fun tag => ?_
      split
      -- Nine tags stand for a constant, which is copied by its index.
      iterate 9 exact Copies.copy16.map _
      · exact hs.copies_patchEnum
      · exact hs.copies_patchDesc.map _
      · exact hinner
      · exact hvalue.counted
      · exact .stop

omit hs in
/-- The place of a type annotation is copied. -/
theorem copies_patchTarget : Copies patchTarget := by
  refine Copies.copy8.bind fun kind => ?_
  -- Every target ends with a path of types, whatever comes before it.
  have hpath : Copies (do
      let path ← Patch.copy8
      Patch.copy (2 * path.toNat)) :=
    Copies.copy8.bind fun path => .copy _
  dsimp only
  repeat' split
  · exact (Copies.copy _).bind fun _ => hpath
  · exact (Copies.copy _).bind fun _ => hpath
  · exact hpath
  · exact (Copies.copy _).bind fun _ => hpath
  · exact Copies.copy16.bind fun _ => (Copies.copy _).bind fun _ => hpath
  · exact Copies.stop.bind fun _ => hpath

/-- Annotations are written as they were read. -/
theorem copies_patchAnnotations : Copies s.patchAnnotations :=
  Copies.bytesLeft.bind fun depth =>
    (hs.copies_patchAnnotation_patchValue (depth + 1)).1.counted

/-- So are those of parameters. -/
theorem copies_patchParameterAnnotations : Copies s.patchParameterAnnotations :=
  Copies.bytesLeft.bind fun depth => Copies.copy8.bind fun params =>
    (hs.copies_patchAnnotation_patchValue (depth + 1)).1.counted.times params.toNat

/-- So are those of types. -/
theorem copies_patchTypeAnnotations : Copies s.patchTypeAnnotations :=
  Copies.bytesLeft.bind fun depth => Copies.counted <|
    copies_patchTarget.bind fun _ => (hs.copies_patchAnnotation_patchValue (depth + 1)).1

/-- So is the default value of an element. -/
theorem copies_patchDefault : Copies s.patchDefault :=
  Copies.bytesLeft.bind fun depth => (hs.copies_patchAnnotation_patchValue (depth + 1)).2

/-! ### Other payloads -/

/-- The payload of a signature is its index, which stays. -/
theorem leaves_patchSignature (data : Bytes) : Leaves (s.patchSignature data) (· = data) := by
  unfold patchSignature
  split
  · next high low =>
    refine (hs.leaves_mapSignature _).bind ?_
    rintro _ rfl
    exact .pure (Bytes.ofUInt16_toUInt16 high low)
  · exact .throw

/-- The simple name of an inner class stays as long as the class keeps its name. -/
theorem leaves_innerNameIndex (inner : String) (outerIndex nameIndex : UInt16) :
    Leaves (s.innerNameIndex inner outerIndex nameIndex) (· = nameIndex) := by
  unfold innerNameIndex
  split
  · exact .pure rfl
  · rw [hs.names.mapClass inner]
    exact .pure rfl

/-- A row of inner classes is written as it was read. -/
theorem copies_patchInnerClass : Copies s.patchInnerClass := by
  refine Copies.copy16.bind fun innerIndex => Copies.copy16.bind fun outerIndex => ?_
  refine Owes.read16_bind fun nameIndex => Owes.read16_bind fun access => ?_
  refine Owes.lift_bind (.ofExcept fun _ h => h) fun inner _ => ?_
  rw [hs.names.publishesClass inner]
  refine Owes.lift_bind (hs.leaves_innerNameIndex inner outerIndex nameIndex) ?_
  rintro _ rfl
  exact Owes.write16_bind Owes.write16

/-- So is the method around a class. -/
theorem copies_patchEnclosingMethod : Copies s.patchEnclosingMethod := by
  refine Copies.copy16.bind fun classIndex => Owes.read16_bind fun methodIndex => ?_
  split
  · exact Owes.write16
  · refine Owes.lift_bind (.ofExcept fun _ h => h) fun owner _ => ?_
    refine Owes.lift_bind (.ofExcept fun _ h => h) fun old _ => ?_
    refine Owes.lift_bind (hs.leaves_changedNames old.1 old.2 (hs.names.mapMethod _)) ?_
    rintro _ rfl
    exact Owes.write16

omit hs in
/-- A table is written as it was read. -/
theorem leaves_patchTable {mapType : UInt16 → PoolM UInt16} (hmap : ∀ i, Leaves (mapType i) (· = i))
    {data : Bytes} {table : Array LocalVariable} {offset : Nat}
    (hread : Decoder.counted LocalVariable.decoder { rest := data } =
      .ok table { rest := [], offset }) : Leaves (patchTable mapType data) (· = data) := by
  have htable : LocalVariable.decodeTable data = .ok table := Decoder.decode_eq_ok_iff.2 ⟨_, hread⟩
  have hform := LocalVariable.takes_table.of_readToEnd hread
  unfold patchTable
  rw [htable]
  -- The table that is read is the one that is decoded.
  refine (Leaves.ofExcept (P := (· = table)) fun _ h => (Except.ok.inj h).symm).bind ?_
  rintro _ rfl
  refine (Leaves.arrayMapM fun v _ => (hmap v.descIndex).bind ?_).bind ?_
  · rintro _ rfl
    exact .pure rfl
  · rintro _ rfl
    exact .ofExcept fun form h => Except.ok.inj (h.symm.trans hform)

section Nested

variable {nested : Array Attribute → PoolM (Array Attribute)}

/-- A body is written as it was read, if its attributes are. -/
theorem leaves_patchCode {data : Bytes} {code : Code} {offset : Nat}
    (hread : Code.decoder { rest := data } = .ok code { rest := [], offset })
    (hnested : Leaves (nested code.attributes) (· = code.attributes)) :
    Leaves (s.patchCode nested data) (· = data) := by
  have hcode : Code.decode data = .ok code := Decoder.decode_eq_ok_iff.2 ⟨_, hread⟩
  have hform := Code.takes_decoder.of_readToEnd hread
  unfold patchCode
  rw [hcode, hs.settings]
  -- The body that is read is the one that is decoded.
  refine (Leaves.ofExcept (P := (· = code)) fun _ h => (Except.ok.inj h).symm).bind ?_
  rintro _ rfl
  refine hnested.bind ?_
  rintro _ rfl
  exact .ofExcept fun form h => Except.ok.inj (h.symm.trans hform)

/-- A component is written as it was read, if its attributes are. -/
theorem patchComponent_ok {st : PatchState} {c : RecordComponent} {input : Input}
    {r : Unit × PatchState} (hread : RecordComponent.decoder st.input = .ok c input)
    (hnested : Leaves (nested c.attributes) (· = c.attributes))
    (h : s.patchComponent nested st p = .ok r q) :
    r.2.input = input ∧ (∃ taken, st.input.rest = taken ++ input.rest ∧
      r.2.written = taken.reverse ++ st.written) ∧ q = p := by
  obtain ⟨taken, hrest, htaken⟩ := RecordComponent.takes_decoder _ _ _ hread
  obtain ⟨c₁, c', key, p₁, p₂, form, hread', hname, hdesc, hrun, hform, hwritten⟩ :=
    patchComponent_eq_ok h
  obtain ⟨rfl, rfl⟩ := EStateM.Result.ok.inj (hread.symm.trans hread')
  obtain ⟨hnameIndex, rfl⟩ := leaves_newIndex (hs.names.mapField key) _ _ _ _ hname
  obtain ⟨hdescIndex, rfl⟩ := hs.leaves_mapDescriptor _ _ _ _ hdesc
  obtain ⟨hattributes, rfl⟩ := hnested _ _ _ hrun
  -- The same is written as was read, so in the same form.
  have hsame : c' = c := by
    cases c'
    cases c
    simp only at hnameIndex hdescIndex hattributes
    rw [hnameIndex, hdescIndex, hattributes]
  rw [hsame] at hform
  obtain rfl := Except.ok.inj (htaken.symm.trans hform)
  exact ⟨rfl, ⟨taken, hrest, hwritten⟩, rfl⟩

/-- A row of components is written as it was read. -/
theorem times_patchComponent_ok {n : Nat} {st : PatchState}
    {read components : Array RecordComponent} {input : Input} {r : Unit × PatchState}
    (hread : Decoder.repeatFrom RecordComponent.decoder n read st.input = .ok components input)
    (hnested : ∀ c ∈ components, Leaves (nested c.attributes) (· = c.attributes))
    (h : Patch.times (s.patchComponent nested) n st p = .ok r q) :
    r.2.input = input ∧ (∃ taken, st.input.rest = taken ++ input.rest ∧
      r.2.written = taken.reverse ++ st.written) ∧ q = p := by
  induction n generalizing st read p with
  | zero =>
    obtain ⟨rfl, rfl⟩ := EStateM.pure_eq_ok.1 hread
    obtain ⟨rfl, rfl⟩ := Patch.pure_eq_ok.1 h
    exact ⟨rfl, ⟨[], rfl, rfl⟩, rfl⟩
  | succ n ih =>
    obtain ⟨c, input₁, hc, hreadRest⟩ := EStateM.bind_eq_ok.1 hread
    obtain ⟨⟨⟩, st₁, p₁, hfirst, hrest⟩ := Patch.bind_eq_ok.1 h
    -- The first component is among those that are read in the end.
    have hmem : c ∈ components := by
      obtain ⟨_, -, added, _, -, rfl, -⟩ :=
        RecordComponent.takes_decoder.repeatFrom n _ _ _ _ hreadRest
      simp
    obtain ⟨rfl, ⟨taken, htaken, hwritten⟩, rfl⟩ := hs.patchComponent_ok hc (hnested c hmem) hfirst
    obtain ⟨hend, ⟨taken', htaken', hwritten'⟩, rfl⟩ := ih hreadRest hrest
    dsimp only at htaken hwritten
    refine ⟨hend, ⟨taken ++ taken', ?_, ?_⟩, rfl⟩
    · rw [htaken, htaken', List.append_assoc]
    · rw [hwritten', hwritten, List.reverse_append, List.append_assoc]

/-- A record is written as it was read, if the attributes of its components are. -/
theorem leaves_patchRecord {data : Bytes} {components : Array RecordComponent} {offset : Nat}
    (hread : Decoder.counted RecordComponent.decoder { rest := data } =
      .ok components { rest := [], offset })
    (hnested : ∀ c ∈ components, Leaves (nested c.attributes) (· = c.attributes)) :
    Leaves ((Patch.counted (s.patchComponent nested)).runFront data) (· = data) := by
  intro p written q hrun
  obtain ⟨n, input, st, hn, htimes, rfl⟩ := Patch.runFront_counted_eq_ok hrun
  obtain ⟨n', input', hn', hread⟩ := EStateM.bind_eq_ok.1 hread
  obtain ⟨rfl, rfl⟩ := EStateM.Result.ok.inj (hn.symm.trans hn')
  -- The count is read again as it was, and the components after it.
  obtain ⟨_, hrest, rfl⟩ := Decoder.takes_u16 _ _ _ hn
  obtain ⟨-, ⟨taken, htaken, hwritten⟩, rfl⟩ := hs.times_patchComponent_ok hread hnested htimes
  dsimp only at hrest htaken hwritten
  refine ⟨?_, rfl⟩
  rw [hwritten, hrest, htaken]
  simp

/-- A payload is left as it is, if the attributes inside it are. -/
theorem leaves_patchPayload {a : Attribute} {name : String} (ha : a.ReadToEnd s.source)
    (hname : s.source.utf8 a.nameIndex = .ok name)
    (hnested : ∀ attributes : Array Attribute, (∀ b ∈ attributes, b.ReadToEnd s.source) →
      Leaves (nested attributes) (· = attributes)) :
    Leaves (s.patchPayload nested name a.data) (· = a.data) := by
  cases ha with
  | code hname' hread hinside =>
    obtain rfl := Except.ok.inj (hname'.symm.trans hname)
    exact hs.leaves_patchCode hread (hnested _ hinside)
  | record hname' hread hinside =>
    obtain rfl := Except.ok.inj (hname'.symm.trans hname)
    exact hs.leaves_patchRecord hread fun c hc => hnested _ (hinside c hc)
  | table hname' hmem hread =>
    obtain rfl := Except.ok.inj (hname'.symm.trans hname)
    simp only [tableNames, List.mem_cons, List.not_mem_nil, or_false] at hmem
    rcases hmem with rfl | rfl
    · exact leaves_patchTable hs.leaves_mapDescriptor hread
    · exact leaves_patchTable hs.leaves_mapSignature hread
  | other hother =>
    -- What is left is patched in place, or not at all.
    have hparsed : name ∉ parsedNames := fun hmem => hother name hmem hname
    unfold patchPayload
    split
    case h_2 | h_3 | h_4 | h_7 => simp [parsedNames, tableNames] at hparsed
    · exact hs.leaves_patchSignature _
    · exact hs.copies_patchInnerClass.counted.run _
    · exact hs.copies_patchEnclosingMethod.run _
    · exact hs.copies_patchAnnotations.run _
    · exact hs.copies_patchAnnotations.run _
    · exact hs.copies_patchParameterAnnotations.run _
    · exact hs.copies_patchParameterAnnotations.run _
    · exact hs.copies_patchTypeAnnotations.run _
    · exact hs.copies_patchTypeAnnotations.run _
    · exact hs.copies_patchDefault.run _
    · exact .pure rfl

end Nested

/-! ### Lists of attributes and members -/

/-- Attributes are left as they are to any depth, by induction on it. -/
theorem leaves_renameAttributesTo (depth : Nat) {attributes : Array Attribute}
    (h : ∀ a ∈ attributes, a.ReadToEnd s.source) :
    Leaves (s.renameAttributesTo depth attributes) (· = attributes) := by
  induction depth generalizing attributes with
  | zero => exact .pure rfl
  | succ depth ih =>
    rw [renameAttributesTo, hs.settings]
    -- Each payload is left as it is, its own attributes by induction.
    refine .arrayMapM fun a ha => (leaves_text a.nameIndex).bind fun name hname => ?_
    refine (hs.leaves_patchPayload (h a ha) hname fun _ => ih).bind ?_
    intro data hdata
    rw [hdata]
    exact .pure rfl

/-- The attributes of a class or member are left as they are. -/
theorem leaves_renameAttributes {attributes : Array Attribute}
    (h : ∀ a ∈ attributes, a.ReadToEnd s.source) :
    Leaves (s.renameAttributes attributes) (· = attributes) :=
  hs.leaves_renameAttributesTo _ h

/-- A field or method is left as it is. -/
theorem leaves_renameMember (kind : MemberKind) {m : MemberInfo}
    (h : ∀ a ∈ m.attributes, a.ReadToEnd s.source) :
    Leaves (s.renameMember kind m) (· = m) := by
  refine (leaves_text m.nameIndex).bind fun name _ => ?_
  refine (leaves_text m.descIndex).bind fun desc _ => ?_
  dsimp only
  rw [hs.names.publishesMember, hs.names.mapMember]
  refine (leaves_newIndex rfl m.nameIndex).bind ?_
  intro nameIndex hnameIndex
  refine (hs.leaves_mapDescriptor m.descIndex).bind ?_
  intro descIndex hdescIndex
  -- Parameters only matter where local variables are named.
  rw [if_neg fun hlocals => by simp [hs.settings] at hlocals]
  refine (hs.leaves_renameAttributes h).bind ?_
  intro attributes hattributes
  rw [hnameIndex, hdescIndex, hattributes]
  exact .pure rfl

/-! ### The pool -/

/-- No call site has a new name. -/
theorem callSiteName_eq_none {method : Option BootstrapMethod} {name desc : String}
    {new : Option String} (h : s.callSiteName method name desc = .ok new) : new = none := by
  -- Whatever is missing on the way to a new name, the answer is none; and so is the renaming's.
  unfold callSiteName at h
  split at h
  · exact (Except.ok.inj h).symm
  · split at h
    · obtain ⟨factory, -, h⟩ := Except.bind_eq_ok.1 h
      split at h
      · exact (Except.ok.inj h).symm
      · split at h
        · exact (Except.ok.inj h).symm
        · next owner _ =>
          obtain ⟨sam, -, h⟩ := Except.bind_eq_ok.1 h
          split at h
          · exact (Except.ok.inj h).symm
          · exact (Except.ok.inj h).symm.trans (hs.names.mapMethod _)
    · exact (Except.ok.inj h).symm

/-- What takes the place of a constant is the constant, and only a method type is put into its
place again. -/
theorem leaves_mapConstant (methods : Array BootstrapMethod) (i : UInt16) (c : Constant) :
    Leaves (s.mapConstant methods i c) fun r =>
      ∀ new, r = some new → new = c ∧ ∃ desc, c = .methodType desc := by
  -- Nothing is said where no constant is written.
  have hnone : ∀ new, (none : Option Constant) = some new →
      new = c ∧ ∃ desc, c = .methodType desc := by
    rintro _ ⟨⟩
  unfold mapConstant
  split
  · next name =>
    refine (leaves_text name).bind fun old _ => ?_
    rw [hs.names.mapReference old]
    exact .pure hnone
  · next owner _ =>
    refine (Leaves.ofExcept fun _ h => h).bind fun ref _ => ?_
    dsimp only
    refine (hs.leaves_changedNames ref.name ref.desc ?_).bind ?_
    · split
      · exact hs.names.mapField _
      · exact hs.names.mapMethod _
    · rintro _ rfl
      exact .pure hnone
  -- Only a method type is written in any case, with the descriptor that it has.
  · next desc =>
    refine (hs.leaves_mapDescriptor desc).bind fun newDesc hdesc => ?_
    rw [hdesc]
    exact .pure fun new hnew => ⟨(Option.some.inj hnew).symm, desc, rfl⟩
  · next bootstrap names =>
    refine (Leaves.ofExcept fun _ h => h).bind fun old _ => ?_
    refine (Leaves.ofExcept fun _ h => hs.callSiteName_eq_none h).bind fun newName hnewName => ?_
    refine (hs.leaves_changedNames old.1 old.2 hnewName).bind ?_
    rintro _ rfl
    exact .pure hnone
  · next bootstrap names =>
    refine (Leaves.ofExcept fun _ h => h).bind fun old _ => ?_
    refine (hs.leaves_changedNames old.1 old.2 rfl).bind ?_
    rintro _ rfl
    exact .pure hnone
  · exact .pure hnone

end Idle

end Scope

namespace Pool

/-- Every method type is what the number of its slot leads to. The number has 16 bits, so this can
fail only for slots past the last index. -/
def TypesInReach (p : Pool) : Prop :=
  ∀ (i : Nat) (desc : UInt16), p.slots[i]? = some (.methodType desc) →
    p.get? i.toUInt16 = some (.methodType desc)

/-- Where all slots have indices, every method type is in its own slot. -/
theorem typesInReach_of_size_le {p : Pool} (h : p.size ≤ 65536) : p.TypesInReach :=
  fun _ _ hi => get?_toUInt16 h hi

/-- Nothing changes where an entry that is not searched for is put into its slot again. -/
theorem set_self {p : Pool} {i : UInt16} {c : Constant} (h : p.get? i = some c)
    (hkey : c.key? = none) : p.set i c = p := by
  -- The slot holds the constant already.
  have hslots : p.slots.setIfInBounds i.toNat c = p.slots := by
    refine Array.ext_getElem? fun j => ?_
    rw [Array.getElem?_setIfInBounds]
    split
    · next hij =>
      subst hij
      rw [if_pos (show i.toNat < p.slots.size from lt_size_of_getElem? h)]
      exact h.symm
    · rfl
  have hindex : noteKey (forgetKey p.index c i) c i = p.index := by
    simp only [noteKey, forgetKey, hkey]
  rw [set_eq h, hslots, hindex]

end Pool

namespace Scope.Idle

variable {s : Scope} {methods : Array BootstrapMethod} {q : Pool}

/-- The pool is left as it is, entry by entry. -/
theorem mapPool_eq (hs : s.Idle) (hreach : s.source.TypesInReach)
    (h : s.mapPool methods s.source = .ok () q) : q = s.source := by
  refine (mapPool_induction (motive := fun _ u => u = s.source)
    rfl ?stay ?set h).elim fun _ hend => hend.2
  case stay =>
    rintro k c _ v _ rfl hr
    exact (hs.leaves_mapConstant methods _ c _ _ _ hr).2
  case set =>
    rintro k c new _ v hc rfl hr
    -- What is written is the constant of the slot, which no search leads to.
    obtain ⟨hsame, rfl⟩ := hs.leaves_mapConstant methods _ c _ _ _ hr
    obtain ⟨rfl, desc, rfl⟩ := hsame new rfl
    exact Pool.set_self (hreach k desc hc) rfl

end Scope.Idle

/-! ### Classes -/

namespace ClassFile

/-- The payloads of a class that are written anew are read to their ends. -/
structure ReadToEnd (c : ClassFile) : Prop where
  fields : ∀ m ∈ c.fields, ∀ a ∈ m.attributes, a.ReadToEnd c.pool
  methods : ∀ m ∈ c.methods, ∀ a ∈ m.attributes, a.ReadToEnd c.pool
  attributes : ∀ a ∈ c.attributes, a.ReadToEnd c.pool

variable {names : Renaming} {c c' : ClassFile}

/-- A renaming that renames nothing leaves a class as it is. -/
theorem relabel_eq_self (hnames : names.Silent) (hreach : c.pool.TypesInReach) (hc : c.ReadToEnd)
    (h : c.relabel names {} = .ok c') : c' = c := by
  obtain ⟨thisName, methods, d, p, p₁, p₂, p₃, hname, hmethods, hpool, hsteps, hc'⟩ := relabel_ok h
  have hs : (c.scope names {} thisName).Idle := ⟨hnames, rfl⟩
  -- The pool comes first, then the members and the attributes; none of them changes it.
  obtain rfl := hs.mapPool_eq hreach hpool
  obtain ⟨hfields, rfl⟩ :=
    Leaves.arrayMapM (fun m hm => hs.leaves_renameMember .field (hc.fields m hm)) _ _ _
      hsteps.fields
  obtain ⟨hmethods', rfl⟩ :=
    Leaves.arrayMapM (fun m hm => hs.leaves_renameMember .method (hc.methods m hm)) _ _ _
      hsteps.methods
  obtain ⟨attributes, hrun, hend⟩ := hsteps.attributes
  obtain ⟨rfl, rfl⟩ := hs.leaves_renameAttributes hc.attributes _ _ _ hrun
  obtain ⟨hattributes, hlast⟩ := EStateM.pure_eq_ok.1 hend
  obtain ⟨_, _, _, rfl⟩ := hsteps.header
  dsimp only at hfields hmethods' hattributes
  rw [hc', ← hlast, hfields, hmethods', ← hattributes, hs.names.publishesClass]
  rfl

/-- The class `A` with a constant for the type of its method, whose body has a table of local
variables. -/
def tabled : ClassFile :=
  { pool := { slots := #[.unusable, .utf8 "A", .ofClass 1, .utf8 "()V", .methodType 3, .utf8 "Code",
      .utf8 "LocalVariableTable", .utf8 "LA;"] }
    access := ⟨0x21⟩
    thisClass := 2
    superClass := 0
    methods := #[{ access := ⟨1⟩, nameIndex := 1, descIndex := 3, attributes := #[{
      nameIndex := 5
      data := [0, 0, 0, 1, 0, 0, 0, 1, 0xb1, 0, 0, 0, 1, 0, 6, 0, 0, 0, 12, 0, 1, 0, 0, 0, 1, 0, 1,
        0, 7, 0, 0] }] }] }

/-- The one payload with a table inside is read to its end, and so is the table. -/
theorem readToEnd_tabled : tabled.ReadToEnd where
  fields := by simp [tabled]
  methods := by
    simp only [tabled, List.mem_toArray, List.mem_singleton, forall_eq]
    -- Behind its one instruction, the body has one table as its attribute.
    have hbody : Code.decoder { rest := [0, 0, 0, 1, 0, 0, 0, 1, 0xb1, 0, 0, 0, 1, 0, 6, 0, 0, 0,
        12, 0, 1, 0, 0, 0, 1, 0, 1, 0, 7, 0, 0] } =
      .ok { maxStack := 0, maxLocals := 1, code := [0xb1], attributes := #[{
          nameIndex := 6, data := [0, 1, 0, 0, 0, 1, 0, 1, 0, 7, 0, 0] }] }
        { rest := [], offset := 31 } := rfl
    have htable : Decoder.counted LocalVariable.decoder
        { rest := [0, 1, 0, 0, 0, 1, 0, 1, 0, 7, 0, 0] } =
      .ok #[{ startPc := 0, length := 1, nameIndex := 1, descIndex := 7, index := 0 }]
        { rest := [], offset := 12 } := rfl
    refine .code rfl hbody ?_
    simp only [List.mem_toArray, List.mem_singleton, forall_eq]
    exact .table rfl List.mem_cons_self htable
  attributes := by simp [tabled]

/-- The class is relabeled, and nothing has changed. -/
theorem relabel_eq_self_tabled : ∃ c', tabled.relabel {} {} = .ok c' ∧ c' = tabled := by
  have hrun : tabled.relabel {} {} = .ok tabled := by cbv
  exact ⟨_, hrun, relabel_eq_self Renaming.silent_default (Pool.typesInReach_of_size_le (by decide))
    readToEnd_tabled hrun⟩

end ClassFile

end Relabel
