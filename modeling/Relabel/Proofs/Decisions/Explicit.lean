import Relabel.Proofs.Decisions.Propagation

/-!
# Names that the mappings give

Where conflicts are not ignored, no name is taken back: decisions are made only where the mappings
agree within each group and nothing clashes. So every field that is mapped gets its name. A group
gets the name of its first mapped method unless that method is called so already; a later method of
the group, with another name of its own, then keeps that.

## Main results

- `Draft.memberPass_eq_none`, `Draft.classPass_eq_none`: nothing gives way.
- `Decisions.ofGraph_strict`: what is decided is what the mappings give.
- `Draft.getD_chosenFields`, `Draft.chooseName_eq`: the names of fields and of groups.
- `Decisions.mappedNames_of_ofGraph`: both, for the decisions on a graph.
-/

namespace Relabel

namespace Draft

variable {options : Options} {d : Draft}

/-! ### Nothing gives way -/

/-- Without ignored conflicts no pass over the members changes anything. -/
theorem memberPass_eq_none (h : options.ignoreConflicts = false) (d : Draft) :
    memberPass options d = none := by
  have hgives : ∀ c, d.givesWay? options c = none := fun c => by
    rw [givesWay?, h]
    rfl
  simp [memberPass, hgives]

/-- Without ignored conflicts no pass over the classes changes anything. -/
theorem classPass_eq_none (h : options.ignoreConflicts = false) (d : Draft) :
    classPass options d = none := by
  unfold classPass
  split
  · rfl
  · simp [h]

/-- Where conflicts are not ignored and there is no problem, the mappings agree in every group. -/
theorem nameConflicts_eq_nil (h : options.ignoreConflicts = false)
    (hproblems : (d.takeNames options).1 = []) : nameConflicts d.decisions = [] := by
  simp only [takeNames, h, Bool.false_eq_true, if_false] at hproblems
  exact List.map_eq_nil_iff.1 hproblems

end Draft

namespace Decisions

variable {g : Graph} {mappings : Mapping.Renames} {options : Options} {r : Decisions}
  {warnings : List Warning}

/-- Where conflicts are not ignored, the names decided on are those that the mappings give. -/
theorem ofGraph_strict (h : ofGraph g mappings options = .ok (r, warnings))
    (hstrict : options.ignoreConflicts = false) :
    Draft.nameConflicts (Draft.start g mappings options).decisions = [] ∧
      ∃ members classes, r = { (Draft.start g mappings options).decisions with
        groupNames := Draft.chosenNames (Draft.start g mappings options).decisions
        fieldNames := Draft.chosenFields (Draft.start g mappings options).decisions
        publishedMembers := members
        publishedClasses := classes } := by
  obtain ⟨named, classesSettled, settled, hnamed, hclasses, hmembers, members, classes, rfl⟩ :=
    ofGraph_ok h
  have hends := (Draft.endsAt_settleClasses named options).1
  have hends' := (Draft.endsAt_settleMembers classesSettled options).1
  rw [hclasses] at hends
  rw [hmembers] at hends'
  -- Neither loop has a first pass that does anything, so the names are those taken at the start.
  obtain rfl := hends.eq_of_eq_none (Draft.classPass_eq_none hstrict _)
  obtain rfl := hends'.eq_of_eq_none (Draft.memberPass_eq_none hstrict _)
  have hdecisions := Draft.decisions_takeNames (Draft.start g mappings options) options
  rw [hnamed] at hdecisions
  refine ⟨Draft.nameConflicts_eq_nil hstrict (by rw [hnamed]), members, classes, ?_⟩
  dsimp only at hdecisions
  rw [hdecisions]

end Decisions

namespace Draft

variable {r : Decisions} {x : String}

/-! ### The names of fields -/

/-- The names after one more field. -/
def noteField (r : Decisions) (names : Array (Option String)) (id : MemberPlace) :
    Array (Option String) :=
  match fieldName? r id with
  | some new => names.setIfInBounds (r.graph.number id) (some new)
  | none => names

/-- Noting a field keeps the number of names. -/
theorem size_noteField (r : Decisions) (names : Array (Option String)) (id : MemberPlace) :
    (noteField r names id).size = names.size := by
  unfold noteField
  split
  · exact Array.size_setIfInBounds
  · rfl

/-- A noted field has its name, and the others theirs. -/
theorem getD_noteField {names : Array (Option String)} {n : Nat} (hn : n < names.size)
    (id : MemberPlace) : (noteField r names id).getD n none =
      if r.graph.number id = n then (fieldName? r id).or (names.getD n none)
      else names.getD n none := by
  unfold noteField
  split
  · next new hnew =>
    simp only [Array.getD_eq_getD_getElem?, Array.getElem?_setIfInBounds, hnew, Option.some_or]
    split
    · next heq => simp [heq ▸ hn]
    · rfl
  · next hnone => simp [hnone]

/-- Of all fields only one has a number, and what is noted for it stays: no later field overwrites
it. -/
private theorem getD_foldl_noteField {members : List MemberPlace} {names : Array (Option String)}
    {n : Nat} {new : Option String} (hn : n < names.size)
    (hall : ∀ id ∈ members, r.graph.number id = n → fieldName? r id = new)
    (h : names.getD n none = new ∨
      names.getD n none = none ∧ ∃ id ∈ members, r.graph.number id = n) :
    (members.foldl (noteField r) names).getD n none = new := by
  induction members generalizing names with
  | nil => exact h.resolve_right (by simp)
  | cons id rest ih =>
    rw [List.forall_mem_cons] at hall
    refine ih (by rwa [size_noteField]) hall.2 ?_
    rw [getD_noteField hn]
    -- The entry is that of this field, or of one that is still to come.
    by_cases hnumber : r.graph.number id = n
    · left
      rw [if_pos hnumber, hall.1 hnumber]
      rcases h with hnew | ⟨hnone, -⟩
      · rw [hnew, Option.or_self]
      · rw [hnone, Option.or_none]
    · rw [if_neg hnumber]
      refine h.imp_right fun ⟨hnone, id', hid', hnumber'⟩ => ⟨hnone, id', ?_, hnumber'⟩
      exact List.mem_of_ne_of_mem (fun heq : id' = id => hnumber (heq ▸ hnumber')) hid'

/-- Where no field had a name, each has the one that the mappings give. -/
theorem getD_chosenFields (hg : r.graph.WellNumbered)
    (hstart : r.fieldNames = Array.replicate r.graph.memberTotal none) {id : MemberPlace}
    (hid : r.graph.Declares id) :
    (chosenFields r).getD (r.graph.number id) none = fieldName? r id := by
  have hlt := hg.number_lt hid
  refine getD_foldl_noteField (by simpa [hstart] using hlt) (fun id' hid' hnumber => ?_)
    (.inr ⟨by simp [hstart, hlt], id, Graph.mem_allMembers.2 hid, rfl⟩)
  rw [hg.number_injective (Graph.mem_allMembers.1 hid') hid hnumber]

/-! ### The names of groups -/

/-- The first method of a group that the mappings name. -/
def firstMapped? (mappings : Mapping.Renames) (g : Graph) (group : LinkGroup) :
    Option MemberPlace :=
  group.members.toList.find? fun id => (mappings.methodName (g.keyOf id)).isSome

/-- The first mapped member is the head of those that are mapped. -/
theorem firstMapped?_eq_head? (r : Decisions) (group : LinkGroup) :
    firstMapped? r.mappings r.graph group = (mappedMembers r group).head?.map Prod.fst := by
  rw [firstMapped?, mappedMembers, List.head?_filterMap, ← List.findSome?_guard]
  induction group.members.toList with
  | nil => rfl
  | cons id rest ih =>
    cases hname : r.mappings.methodName (r.graph.keyOf id) with
    | none => simpa [hname] using ih
    | some new => simp [hname]

theorem mem_mappedMembers {group : LinkGroup} {id : MemberPlace} :
    (id, x) ∈ mappedMembers r group ↔
      id ∈ group.members ∧ r.mappings.methodName (r.graph.keyOf id) = some x := by
  simp [mappedMembers]

/-- Where the mappings agree in a group, it gets the name that any of its methods is mapped to,
unless the first of those is called so already. -/
theorem chooseName_eq {group : LinkGroup} (hagree : (chooseName r group).2 = none)
    {id : MemberPlace} (hid : id ∈ group.members)
    (hmapped : r.mappings.methodName (r.graph.keyOf id) = some x) :
    ∃ first, firstMapped? r.mappings r.graph group = some first ∧
      r.mappings.methodName (r.graph.keyOf first) = some x ∧
      (chooseName r group).1 = if x = (r.graph.memberAt first).name then none else some x := by
  have hmem := mem_mappedMembers.2 ⟨hid, hmapped⟩
  unfold chooseName at hagree ⊢
  rw [firstMapped?_eq_head?]
  cases hlist : mappedMembers r group with
  | nil =>
    rw [hlist] at hmem
    cases hmem
  | cons entry rest =>
    obtain ⟨first, name⟩ := entry
    rw [hlist] at hmem hagree
    -- Without a conflict all rows of the group give one name.
    have hname : name = x := by
      rcases List.mem_cons.1 hmem with heq | hrest
      · exact (Prod.mk.inj heq).2.symm
      · have hnone := List.find?_eq_none.1 (Option.map_eq_none_iff.1 hagree) _ hrest
        exact (of_not_not (mt bne_iff_ne.2 hnone)).symm
    subst hname
    have hfirst : (first, name) ∈ mappedMembers r group := by simp [hlist]
    exact ⟨first, rfl, (mem_mappedMembers.1 hfirst).2, rfl⟩

/-- Without conflicts every group agrees on its name. -/
theorem chooseName_agrees (h : nameConflicts r = []) {group : LinkGroup}
    (hgroup : group ∈ r.linkage.groups) : (chooseName r group).2 = none :=
  List.filterMap_eq_nil_iff.1 h group (Array.mem_toList_iff.2 hgroup)

end Draft

/-! ### Decisions on a graph -/

namespace Decisions

variable {g : Graph} {mappings : Mapping.Renames} {options : Options} {r : Decisions}
  {warnings : List Warning}

/-- A field gets the name that the mappings give it, if it is another. -/
theorem newName_of_field (hg : g.WellNumbered) (h : ofGraph g mappings options = .ok (r, warnings))
    (hstrict : options.ignoreConflicts = false) {id : MemberPlace} (hid : g.Declares id)
    (hkind : (g.memberAt id).kind = .field) :
    r.newName id = (mappings.fieldName (g.keyOf id)).filter (· != (g.memberAt id).name) := by
  obtain ⟨-, members, classes, rfl⟩ := ofGraph_strict h hstrict
  have hfield : ¬ (g.memberAt id).isMethod := by
    rw [MemberShape.isMethod_iff, hkind]
    decide
  have hname : Draft.fieldName? (Draft.start g mappings options).decisions id =
      (mappings.fieldName (g.keyOf id)).filter (· != (g.memberAt id).name) := if_neg hfield
  rw [← hname]
  exact (if_neg hfield).trans (Draft.getD_chosenFields hg rfl hid)

/-- A method gets the name that is chosen for its group. -/
theorem newName_of_method (hg : g.WellNumbered) (h : ofGraph g mappings options = .ok (r, warnings))
    (hstrict : options.ignoreConflicts = false) {id : MemberPlace} (hid : Linkage.Groupable g id) :
    ∃ group, (Linkage.ofGraph g options).group? g id = some group ∧ id ∈ group.members ∧
      (Draft.chooseName (Draft.start g mappings options).decisions group).2 = none ∧
      r.newName id = (Draft.chooseName (Draft.start g mappings options).decisions group).1 := by
  obtain ⟨hagree, members, classes, rfl⟩ := ofGraph_strict h hstrict
  obtain ⟨byRoot, hgrouped⟩ := Linkage.exists_grouped hg options
  obtain ⟨k, hk⟩ := hgrouped.known id (Linkage.mem_groupedMembers.2 hid)
  have hin : (Linkage.ofGraph g options).InGroup k id := hgrouped.inGroup_iff.2 ⟨hid, hk⟩
  have hnumber := (hgrouped.groupNumber?_eq_some_iff hid.declared).2 hin
  obtain ⟨group, hgroup, hmem⟩ := hin
  refine ⟨group, by rw [Linkage.group?, hnumber, Option.bind_some, hgroup], hmem,
    Draft.chooseName_agrees hagree (Array.mem_of_getElem? hgroup), ?_⟩
  -- A method takes the name of its group.
  have hmethod : (g.memberAt id).isMethod := MemberShape.isMethod_iff.2 hid.isMethod
  have hlinkage : (Draft.start g mappings options).decisions.linkage =
    Linkage.ofGraph g options := rfl
  refine (if_pos hmethod).trans ?_
  show ((Linkage.ofGraph g options).groupNumber? g id).bind (fun k =>
    (Draft.chosenNames (Draft.start g mappings options).decisions).getD k none) = _
  rw [hnumber, Option.bind_some, Draft.chosenNames, hlinkage, Array.getD_eq_getD_getElem?,
    Array.getElem?_map, hgroup, Option.map_some, Option.getD_some]

/-- Members that the mappings name, with these names: each field, and each method that is called so
already or whose group is not named by a method that is. -/
structure MappedNames (g : Graph) (mappings : Mapping.Renames) (options : Options)
    (r : Decisions) : Prop where
  field : ∀ id, g.Declares id → (g.memberAt id).kind = .field → ∀ x,
    mappings.fieldName (g.keyOf id) = some x → (r.memberAfter id).1 = x
  method : ∀ id, g.Declares id → (g.memberAt id).kind = .method →
    ¬ Text.startsWith (g.memberAt id).name "<" → ∀ x, mappings.methodName (g.keyOf id) = some x →
    ∃ group first, (Linkage.ofGraph g options).group? g id = some group ∧
      Draft.firstMapped? mappings g group = some first ∧
      mappings.methodName (g.keyOf first) = some x ∧
      ((r.memberAfter id).1 = x ↔ (g.memberAt id).name = x ∨ (g.memberAt first).name ≠ x)

/-- Where conflicts are not ignored and decisions are made, members have the names that the mappings
give them, but for methods in a group whose first mapped method is called so already. -/
theorem mappedNames_of_ofGraph {shapes : List ClassShape}
    (h : ofGraph (.ofShapes shapes) mappings options = .ok (r, warnings))
    (hstrict : options.ignoreConflicts = false) :
    r.MappedNames (.ofShapes shapes) mappings options := by
  have hg := Graph.wellNumbered_ofShapes shapes
  generalize Graph.ofShapes shapes = g at hg h
  have hgraph : r.graph = g := (retreats_of_ofGraph h).graph
  refine ⟨fun id hid hkind x hx => ?_, fun id hid hkind hinit x hx => ?_⟩
  · have hname := newName_of_field hg h hstrict hid hkind
    rw [memberAfter, hgraph, hname, hx]
    -- A name equal to the own name is filtered out, and the member keeps that very name.
    by_cases heq : x = (g.memberAt id).name
    · simp [Option.filter, heq]
    · simp [Option.filter, heq]
  · have hgroupable : Linkage.Groupable g id :=
      ⟨hid, hkind, fun heq => hinit (heq ▸ by decide), fun heq => hinit (heq ▸ by decide)⟩
    obtain ⟨group, hgroup, hmem, hagree, hname⟩ := newName_of_method hg h hstrict hgroupable
    obtain ⟨first, hfirst, hmapped, hchosen⟩ := Draft.chooseName_eq hagree hmem hx
    refine ⟨group, first, hgroup, hfirst, hmapped, ?_⟩
    rw [memberAfter, hgraph, hname, hchosen]
    -- The group takes the first mapped name only where it differs from the name of its first mapped
    -- method.
    show (if x = (g.memberAt first).name then none else some x).getD (g.memberAt id).name = x ↔ _
    split
    · next heq => simp [heq]
    · next hne => simp [Ne.symm hne]

/-- `run` and `halt` are mapped, each first in its group. -/
theorem mappedNames_of_ofGraph_kinship :
    ofGraph (.ofShapes [parentShape, childShape]) capturing {} = .ok (kinshipDecisions, []) ∧
      ({} : Options).ignoreConflicts = false ∧
      kinshipDecisions.MappedNames (.ofShapes [parentShape, childShape]) capturing {} ∧
      (kinshipDecisions.memberAfter ⟨0, 0⟩).1 = "go" ∧
      (kinshipDecisions.memberAfter ⟨1, 1⟩).1 = "stop" :=
  ⟨ofGraph_kinship, rfl, mappedNames_of_ofGraph ofGraph_kinship rfl, rfl, rfl⟩

end Decisions

end Relabel
