import Relabel.Proofs.Decisions.Distinct
import Relabel.Proofs.Graph.Groups

/-!
# Names go to all linked methods

A group has one name, which is given and taken back for all its methods at once. So methods that
override one another have one name at every stage, and a name that is left in the end is one that
the mappings give to a method of the group.

## Main results

- `Linkage.groupNumber?_eq_of_linked`: the ends of a chain of edges are in one group.
- `Decisions.memberAfter_eq_of_linked`: linked methods with one key have one name afterwards.
- `Draft.exists_of_chosenNames`, `Draft.fieldName_of_chosenFields`: where a name comes from.
- `Decisions.namesPropagated_of_ofGraph`: both, for the decisions on a graph.
-/

namespace Relabel

open Relation (EqvGen)

namespace Linkage

variable {g : Graph} {options : Options} {a b : MemberPlace}

/-- What takes part in overriding is a method that belongs to a group. -/
theorem Taking.groupable (h : Taking g options a) : Groupable g a := by
  have htakes := h.takesPart
  simp only [Linkage.takesPart, Bool.and_eq_true] at htakes
  refine mem_groupedMembers.1 ?_
  simp only [groupedMembers, List.mem_append, List.mem_filter, Graph.mem_allMembers, h.declared,
    htakes.1, true_and]
  cases (g.classAt a.owner).isInput <;> simp

/-- The ends of a chain of edges are in one group. -/
theorem groupNumber?_eq_of_linked (hg : g.WellNumbered) (ha : Groupable g a) (hb : Groupable g b)
    (h : EqvGen (Edge g options) a b) :
    (ofGraph g options).groupNumber? g a = (ofGraph g options).groupNumber? g b := by
  obtain ⟨byRoot, hgrouped⟩ := exists_grouped hg options
  have hroot := (root_eq_root_iff hg ha.declared hb.declared).2 h
  have hnoted := hgrouped.noted a ha.declared
  have hnoted' := hgrouped.noted b hb.declared
  rw [if_pos (mem_groupedMembers.2 ha), hroot] at hnoted
  rw [if_pos (mem_groupedMembers.2 hb)] at hnoted'
  exact hnoted.trans hnoted'.symm

end Linkage

/-! ### Where names come from -/

namespace Draft

variable {r : Decisions} {x : String}

/-- The name of a group is one that the mappings give to one of its methods. -/
theorem exists_of_chooseName {group : LinkGroup} (h : (chooseName r group).1 = some x) :
    ∃ id ∈ group.members, r.mappings.methodName (r.graph.keyOf id) = some x := by
  unfold chooseName at h
  split at h
  · cases h
  · next first name rest hmapped =>
    -- The first mapped member is one of the group, with the name that the mappings give to it.
    have hmem : (first, name) ∈ mappedMembers r group := by simp [hmapped]
    obtain ⟨id, hid, hname⟩ := List.mem_filterMap.1 hmem
    obtain ⟨new, hnew, heq⟩ := Option.map_eq_some_iff.1 hname
    obtain ⟨rfl, rfl⟩ := Prod.mk.inj heq
    dsimp only at h
    split at h
    · cases h
    · obtain rfl := Option.some.inj h
      exact ⟨id, Array.mem_toList_iff.1 hid, hnew⟩

/-- A chosen name comes from the row of a member. -/
theorem exists_of_chosenNames {k : Nat} (h : (chosenNames r).getD k none = some x) :
    ∃ id, r.linkage.InGroup k id ∧ r.mappings.methodName (r.graph.keyOf id) = some x := by
  rw [chosenNames, Array.getD_eq_getD_getElem?, Array.getElem?_map] at h
  cases hgroup : r.linkage.groups[k]? with
  | none => simp [hgroup] at h
  | some group =>
    rw [hgroup, Option.map_some, Option.getD_some] at h
    obtain ⟨id, hid, hname⟩ := exists_of_chooseName h
    exact ⟨id, ⟨group, hgroup, hid⟩, hname⟩

/-- A field gets a name from the mappings only. -/
theorem fieldName_of_fieldName? {id : MemberPlace} (h : fieldName? r id = some x) :
    r.mappings.fieldName (r.graph.keyOf id) = some x := by
  unfold fieldName? at h
  dsimp only at h
  split at h
  · cases h
  · exact (Option.filter_eq_some_iff.1 h).1

private theorem exists_of_foldl {members : List MemberPlace} {names : Array (Option String)}
    {n : Nat} (h : (members.foldl (fun names id =>
      match fieldName? r id with
      | some new => names.setIfInBounds (r.graph.number id) (some new)
      | none => names) names).getD n none = some x) :
    names.getD n none = some x ∨
      ∃ id ∈ members, r.graph.number id = n ∧ fieldName? r id = some x := by
  induction members generalizing names with
  | nil => exact .inl h
  | cons id rest ih =>
    rw [List.foldl_cons] at h
    -- A name that is there behind all members was given by a later one, or is there behind the
    -- first.
    rcases ih h with hfirst | ⟨id', hid', hname⟩
    · cases hfield : fieldName? r id with
      | none =>
        simp only [hfield] at hfirst
        exact .inl hfirst
      | some new =>
        simp only [hfield, Array.getD_eq_getD_getElem?, Array.getElem?_setIfInBounds] at hfirst
        split at hfirst
        · next hnumber =>
          split at hfirst
          · obtain rfl := Option.some.inj hfirst
            exact .inr ⟨id, List.mem_cons_self, hnumber, hfield⟩
          · cases hfirst
        · exact .inl (by rw [Array.getD_eq_getD_getElem?, hfirst])
    · exact .inr ⟨id', List.mem_cons_of_mem _ hid', hname⟩

/-- The name of a field is one that the mappings give to the field itself. -/
theorem fieldName_of_chosenFields (hg : r.graph.WellNumbered) {id : MemberPlace}
    (hid : r.graph.Declares id) (hempty : ∀ n : Nat, r.fieldNames.getD n none = none)
    (h : (chosenFields r).getD (r.graph.number id) none = some x) :
    r.mappings.fieldName (r.graph.keyOf id) = some x := by
  rcases exists_of_foldl h with hbefore | ⟨id', hid', hnumber, hname⟩
  · rw [hempty] at hbefore
    cases hbefore
  · obtain rfl := hg.number_injective (Graph.mem_allMembers.1 hid') hid hnumber
    exact fieldName_of_fieldName? hname

end Draft

/-! ### Decisions on a graph -/

namespace Decisions

open Linkage (Taking SameKey Edge)

variable {g : Graph} {mappings : Mapping.Renames} {options : Options} {r : Decisions}
  {warnings : List Warning} {a b : MemberPlace}

/-- The linkage is that of the graph. -/
theorem linkage_ofGraph (h : ofGraph g mappings options = .ok (r, warnings)) :
    r.linkage = Linkage.ofGraph g options :=
  (retreats_of_ofGraph h).linkage

/-- Methods in one group with one name have one new name. -/
theorem newName_eq_of_groupNumber? (ha : (r.graph.memberAt a).isMethod)
    (hb : (r.graph.memberAt b).isMethod)
    (h : r.linkage.groupNumber? r.graph a = r.linkage.groupNumber? r.graph b) :
    r.newName a = r.newName b := by
  rw [newName, newName, if_pos ha, if_pos hb, h]

/-- Linked methods with one name and descriptor have one name and descriptor afterwards. -/
theorem memberAfter_eq_of_linked (hg : g.WellNumbered)
    (h : ofGraph g mappings options = .ok (r, warnings)) (ha : Taking g options a)
    (hb : Taking g options b) (hlinked : EqvGen (Edge g options) a b) (hkey : SameKey g a b) :
    r.memberAfter a = r.memberAfter b := by
  have hgraph : r.graph = g := (retreats_of_ofGraph h).graph
  have hname : r.newName a = r.newName b := by
    refine newName_eq_of_groupNumber? ?_ ?_ ?_
    · rw [hgraph]
      exact MemberShape.isMethod_iff.2 ha.groupable.isMethod
    · rw [hgraph]
      exact MemberShape.isMethod_iff.2 hb.groupable.isMethod
    · rw [hgraph, linkage_ofGraph h]
      exact Linkage.groupNumber?_eq_of_linked hg ha.groupable hb.groupable hlinked
  simp only [memberAfter, hgraph, hname, hkey.name_eq, hkey.desc_eq]

/-- Names that agree wherever methods override one another, and that all come from the mappings. -/
structure NamesPropagated (g : Graph) (mappings : Mapping.Renames) (options : Options)
    (r : Decisions) : Prop where
  graph : r.graph = g
  /-- Methods that take part and that one class sees under one name and descriptor have one name and
  descriptor afterwards. -/
  override : ∀ c < g.size, ∀ a b, Taking g options a → Taking g options b →
    a.owner ∈ g.selfAndAncestors c → b.owner ∈ g.selfAndAncestors c → SameKey g a b →
    r.memberAfter a = r.memberAfter b
  /-- The new name of a method is one that the mappings give to a method of its group. -/
  method : ∀ id, g.Declares id → (g.memberAt id).kind = .method → ∀ x, r.newName id = some x →
    ∃ k source, (Linkage.ofGraph g options).InGroup k id ∧
      (Linkage.ofGraph g options).InGroup k source ∧ mappings.methodName (g.keyOf source) = some x
  /-- The new name of a field is one that the mappings give to it. -/
  field : ∀ id, g.Declares id → (g.memberAt id).kind = .field → ∀ x, r.newName id = some x →
    mappings.fieldName (g.keyOf id) = some x

/-- The names decided on for a graph go to all methods that override one another, and are those that
the mappings give; also where clashes made the decisions take names back. -/
theorem namesPropagated_of_ofGraph {shapes : List ClassShape}
    (h : ofGraph (.ofShapes shapes) mappings options = .ok (r, warnings)) :
    r.NamesPropagated (.ofShapes shapes) mappings options := by
  have hg := Graph.wellNumbered_ofShapes shapes
  generalize Graph.ofShapes shapes = g at hg h
  have hretreats := retreats_of_ofGraph h
  have hgraph : r.graph = g := hretreats.graph
  refine ⟨hgraph, fun c hc a b ha hb hac hbc hkey => ?_, fun id hid hkind x hx => ?_,
    fun id hid hkind x hx => ?_⟩
  · have hedge : Edge g options a b := .override hc ha hb hac hbc hkey
    exact memberAfter_eq_of_linked hg h ha hb (.rel a b hedge) hkey
  · have hmethod : (r.graph.memberAt id).isMethod := by
      rw [hgraph]
      exact MemberShape.isMethod_iff.2 hkind
    rw [newName, if_pos hmethod, hgraph, linkage_ofGraph h] at hx
    obtain ⟨k, hk, hname⟩ := Option.bind_eq_some_iff.1 hx
    -- The name was there from the start, when it was chosen for the group.
    obtain ⟨source, hsource, hmapped⟩ :=
      Draft.exists_of_chosenNames (hretreats.groupNames k x hname)
    obtain ⟨byRoot, hgrouped⟩ := Linkage.exists_grouped hg options
    exact ⟨k, source, (hgrouped.groupNumber?_eq_some_iff hid).1 hk, hsource, hmapped⟩
  · have hfield : ¬ (r.graph.memberAt id).isMethod := by
      rw [hgraph, MemberShape.isMethod_iff, hkind]
      decide
    rw [newName, if_neg hfield, hgraph] at hx
    have hempty : ∀ n : Nat,
        (Draft.start g mappings options).decisions.fieldNames.getD n none = none := by
      intro n
      simp only [Draft.start, Array.getD_eq_getD_getElem?, Array.getElem?_replicate]
      split <;> rfl
    exact Draft.fieldName_of_chosenFields (r := (Draft.start g mappings options).decisions) hg hid
      hempty (hretreats.fieldNames _ x hx)

/-- `run` is mapped in `A` only, and its override in `B` goes by the same new name. -/
theorem namesPropagated_of_ofGraph_kinship :
    ofGraph (.ofShapes [parentShape, childShape]) capturing {} = .ok (kinshipDecisions, []) ∧
      kinshipDecisions.NamesPropagated (.ofShapes [parentShape, childShape]) capturing {} ∧
      kinshipDecisions.newName ⟨1, 0⟩ = some "go" :=
  ⟨ofGraph_kinship, namesPropagated_of_ofGraph ofGraph_kinship, rfl⟩

end Decisions

end Relabel
