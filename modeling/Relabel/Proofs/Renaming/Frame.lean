import Relabel.Proofs.Renaming.Attributes

/-!
# What a relabeling leaves alone

Instructions address the pool by index, and so do other constants, attributes and the class itself.
All these indices stay valid: no slot of the pool moves or changes its kind, and what is appended is
new. Everything that holds instructions is left as it is.

## Main results

- `Constant.Repointed`: the only change to a constant is where it points.
- `ClassFile.Framed`: what is left alone of a whole class.
- `ClassFile.framed_of_relabel`: a relabeling leaves this alone.
-/

namespace Relabel

open Pool

/-- A constant with another index in the place where relabeling puts one: the name of a class, the
name and descriptor of a member reference, dynamic constant or call site, and the descriptor of a
method type. Every other constant is the same. -/
inductive Constant.Repointed : Constant → Constant → Prop
  | ofClass (n n' : UInt16) : Repointed (.ofClass n) (.ofClass n')
  | member (kind : ReferenceKind) (owner n n' : UInt16) :
    Repointed (.member kind owner n) (.member kind owner n')
  | dynamic (bootstrap n n' : UInt16) : Repointed (.dynamic bootstrap n) (.dynamic bootstrap n')
  | invokeDynamic (bootstrap n n' : UInt16) :
    Repointed (.invokeDynamic bootstrap n) (.invokeDynamic bootstrap n')
  | methodType (d d' : UInt16) : Repointed (.methodType d) (.methodType d')
  | same {c : Constant} : c.isPointer = false → Repointed c c

namespace Scope

variable {s : Scope} {methods : Array BootstrapMethod} {p q final : Pool}

theorem Becomes.repointed {c c' : Constant} (h : s.Becomes methods q c c') : c.Repointed c' := by
  cases h with
  | ofClass => exact .ofClass _ _
  | member => exact .member _ _ _ _
  | methodType => exact .methodType _ _
  | invokeDynamic => exact .invokeDynamic _ _ _
  | dynamic => exact .dynamic _ _ _
  | stays hc => exact .same hc

end Scope

/-- A member keeps its attributes. -/
def MemberInfo.AttributesKept (settings : RelabelSettings) (p q : Pool) (m m' : MemberInfo) :
    Prop :=
  List.Forall₂ (AttributeKept settings p q) (keptAttributes settings p m.attributes)
    m'.attributes.toList

/-- All members keep their attributes. -/
theorem Scope.Ready.forall₂_attributesKept {s : Scope} {p q final : Pool} {kind : MemberKind}
    {ms ms' : Array MemberInfo} (hp : s.Ready p)
    (h : ms.mapM (s.renameMember kind) p = .ok ms' q) (hfinal : q.Extends final) :
    List.Forall₂ (MemberInfo.AttributesKept s.settings s.source final) ms.toList ms'.toList := by
  refine hp.forall₂_mapM (fun m _ => onlyInterns_renameMember s kind m) ?_ h hfinal
  intro m _ p m' q hp hm hext
  obtain ⟨p', params, hp', -, hattributes, -⟩ := hp.renameMember hm
  -- Parameters have no part in what is kept.
  have hready : ({ s with params } : Scope).Ready p' := ⟨hp'.coherent, hp'.keeps⟩
  exact hready.renameAttributes hattributes hext

/-- A member in its place: under its new name and with its attributes. -/
def MemberInfo.Kept (names : Renaming) (settings : RelabelSettings) (owner : String)
    (kind : MemberKind) (p q : Pool) (m m' : MemberInfo) : Prop :=
  m.Renamed names owner kind p q m' ∧ m.AttributesKept settings p q m'

namespace ClassFile

/-- What `c'` has of `c`: every slot with a constant that at most points elsewhere, new names behind
them, the header, and all members and attributes in their order. -/
structure Framed (names : Renaming) (settings : RelabelSettings) (thisName : String)
    (c c' : ClassFile) : Prop where
  slots : ∀ (i : Nat) (k : Constant), c.pool.slots[i]? = some k →
    ∃ k', c'.pool.slots[i]? = some k' ∧ k.Repointed k'
  size_le : c.pool.size ≤ c'.pool.size
  added : ∀ (i : Nat) (k : Constant), c.pool.size ≤ i → c'.pool.slots[i]? = some k →
    k.isName ∧ ∀ j : Nat, c'.pool.slots[j]? = some k → j = i
  versions : c'.minorVersion = c.minorVersion ∧ c'.majorVersion = c.majorVersion
  thisClass : c'.thisClass = c.thisClass
  superClass : c'.superClass = c.superClass
  interfaces : c'.interfaces = c.interfaces
  fields : List.Forall₂ (MemberInfo.Kept names settings thisName .field c.pool c'.pool)
    c.fields.toList c'.fields.toList
  methods : List.Forall₂ (MemberInfo.Kept names settings thisName .method c.pool c'.pool)
    c.methods.toList c'.methods.toList
  attributes : List.Forall₂ (AttributeKept settings c.pool c'.pool)
    (keptAttributes settings c.pool c.attributes) c'.attributes.toList

variable {names : Renaming} {settings : RelabelSettings} {c c' : ClassFile}

/-- The attributes of the class, whose source file may be named anew. -/
theorem forall₂_attributes {thisName : String} {d : ClassFile} {p p₁ p₂ p₃ q : Pool}
    (hp₂ : (c.scope names settings thisName).Ready p₂) (hext : p₃.Extends q)
    (h : (c.scope names settings thisName).BodySteps c d p p₁ p₂ p₃ q) :
    List.Forall₂ (AttributeKept settings c.pool q) (keptAttributes settings c.pool c.attributes)
      d.attributes.toList := by
  obtain ⟨attributes, hattributes, hsource⟩ := h.attributes
  have hkept := hp₂.renameAttributes hattributes hext
  split at hsource
  · next hrebuild =>
    -- A source file counts as patched only where it is named anew.
    have hnames : ["SourceFile"] ⊆ patchedNames settings := by
      have hrebuild' : settings.rebuildSourceFilenames = true := hrebuild
      simp [patchedNames, hrebuild']
    exact forall₂_comp (fun _ _ _ hab hbc => hab.repaid hnames hbc) hkept
      (Scope.nameSourceFile_ok hsource)
  · obtain ⟨rfl, -⟩ := EStateM.pure_eq_ok.1 hsource
    exact hkept

/-- A relabeling of a class whose slots have indices leaves alone all that instructions and other
constants depend on. -/
theorem framed_of_relabel {data : Bytes} (hdecode : decode data = .ok c)
    (hsize : c.pool.size ≤ 65536) (h : c.relabel names settings = .ok c') :
    ∃ thisName, c.name = .ok thisName ∧ c.Framed names settings thisName c' := by
  have hcoherent := coherent_of_decode hdecode hsize
  obtain ⟨thisName, bootstraps, d, p, p₁, p₂, p₃, hname, -, hpool, hsteps, hc'⟩ := relabel_ok h
  have hp : (c.scope names settings thisName).Finished bootstraps p :=
    Scope.mapPool_ok hcoherent hpool
  have hfinished := hp.of_interns hsteps.interns_all
  obtain ⟨⟨hp₁, hext₁⟩, ⟨hp₂, hext₂⟩, -, hext₃⟩ := hsteps.ready hp.ready
  -- What a member is called and what it keeps are two results about one list.
  have hfields := List.Forall₂.mp (fun _ _ => And.intro)
    (hp.ready.forall₂_renameMember hsteps.fields hext₁)
    (hp.ready.forall₂_attributesKept hsteps.fields hext₁)
  have hmethods := List.Forall₂.mp (fun _ _ => And.intro)
    (hp₁.forall₂_renameMember hsteps.methods hext₂)
    (hp₁.forall₂_attributesKept hsteps.methods hext₂)
  have hattributes := forall₂_attributes hp₂ hext₃ hsteps
  obtain ⟨fields, methods, attributes, rfl⟩ := hsteps.header
  refine ⟨thisName, hname,
    { slots := fun i k hi => ?_
      size_le := size_le_relabel h
      added := fun i k hi hk => hfinished.added hi hk
      versions := ⟨by rw [hc'], by rw [hc']⟩
      thisClass := by rw [hc']
      superClass := by rw [hc']
      interfaces := by rw [hc']
      fields := by rw [hc']; exact hfields
      methods := by rw [hc']; exact hmethods
      attributes := by rw [hc']; exact hattributes }⟩
  obtain ⟨k', hk', hbecomes⟩ := hfinished.becomes hi
  exact ⟨k', hk', hbecomes.repointed⟩

/-- The smallest class, whose one class constant is pointed at a new text. -/
theorem framed_of_relabel_lone :
    decode loneBytes = .ok lone ∧ lone.pool.size ≤ 65536 ∧
      ∃ c', lone.relabel toB {} = .ok c' ∧
        ∃ thisName, lone.name = .ok thisName ∧ lone.Framed toB {} thisName c' := by
  obtain ⟨c', hc'⟩ := exists_relabel_lone
  exact ⟨decode_loneBytes, by decide, c', hc',
    framed_of_relabel decode_loneBytes (by decide) hc'⟩

end ClassFile

end Relabel
