import Relabel.Proofs.Decisions.Explicit
import Relabel.Proofs.Decisions.IgnoredConflicts

/-!
# Where conflicts are not ignored

The mappings are at odds with themselves where they give methods of one group different names, give
two classes one name, or give two members of one kind in an input one name and descriptor. Where
conflicts are not ignored, decisions are made iff none of this happens, and all names are then as
the mappings ask. Otherwise each conflict is reported once: those of groups, then one of classes,
then those of members.

## Main results

- `Draft.memberAfter_named`: the first step gives members the names that the mappings ask for.
- `Draft.forall₂_nameConflicts`: which groups are reported.
- `Draft.classReport_classProblems`: which classes are reported.
- `Draft.forall₂_memberClashes`: which members are reported.
- `Decisions.conflicts_of_ofGraph`: when decisions are made, and what is reported otherwise.
-/

namespace Relabel

/-- A member with its class, in words. -/
def Graph.describe (g : Graph) (id : MemberPlace) : String :=
  (g.classAt id.owner).name ++ "." ++ (g.memberAt id).describe

theorem MemberShape.isMethod_eq_iff {m m' : MemberShape} :
    m.isMethod = m'.isMethod ↔ m.kind = m'.kind := by
  unfold isMethod
  cases m.kind <;> cases m'.kind <;> simp

/-! ### What the mappings ask for -/

namespace Mapping.Renames

variable (mappings : Renames) (g : Graph) (options : Options)

/-- The new name that the mappings ask for a member: for a field its own, for a method that of the
first mapped method of its group. -/
def newMember (id : MemberPlace) : Option String :=
  if (g.memberAt id).isMethod then do
    let group ← (Linkage.ofGraph g options).group? g id
    let first ← Draft.firstMapped? mappings g group
    -- A first method that is called so already leaves the names of all others as they are.
    (mappings.methodName (g.keyOf first)).filter (· != (g.memberAt first).name)
  else (mappings.fieldName (g.keyOf id)).filter (· != (g.memberAt id).name)

/-- The name and descriptor that the mappings ask for a member. -/
def memberAfter (id : MemberPlace) : String × String :=
  ((mappings.newMember g options id).getD (g.memberAt id).name,
    mappings.descriptor (g.memberAt id).desc)

/-- The mappings give two members of one kind one name and descriptor. -/
def Collide (a b : MemberPlace) : Prop :=
  (g.memberAt a).kind = (g.memberAt b).kind ∧
    mappings.memberAfter g options a = mappings.memberAfter g options b

instance (a b : MemberPlace) : Decidable (mappings.Collide g options a b) :=
  inferInstanceAs (Decidable (_ ∧ _))

/-- A member collides with an earlier one of its class. -/
def CollidesEarlier (id : MemberPlace) : Prop :=
  ∃ other ∈ g.membersOf id.owner, other.index < id.index ∧ mappings.Collide g options other id

instance (id : MemberPlace) : Decidable (mappings.CollidesEarlier g options id) :=
  inferInstanceAs (Decidable (∃ _ ∈ _, _))

/-- The mappings give two methods of a group different names. -/
def Disagree (group : LinkGroup) : Prop :=
  ∃ a ∈ group.members.toList, ∃ b ∈ group.members.toList,
    (mappings.methodName (g.keyOf a)).isSome ∧ (mappings.methodName (g.keyOf b)).isSome ∧
      mappings.methodName (g.keyOf a) ≠ mappings.methodName (g.keyOf b)

instance (group : LinkGroup) : Decidable (mappings.Disagree g group) :=
  inferInstanceAs (Decidable (∃ _ ∈ _, _))

/-- The mappings give all things names that go together. -/
structure Harmonious : Prop where
  groups : ∀ group ∈ (Linkage.ofGraph g options).groups, ¬ mappings.Disagree g group
  /-- No two inputs or classes of the classpath get one name. -/
  classes : g.classes.toList.Pairwise fun a b => Draft.hasSay a → Draft.hasSay b →
    mappings.className a.name ≠ mappings.className b.name
  /-- No two members of one kind in an input get one name and descriptor. -/
  members : ∀ a b, g.Declares a → g.Declares b → a ≠ b → a.owner = b.owner →
    (g.classAt a.owner).isInput → ¬ mappings.Collide g options a b

/-! ### What is reported -/

/-- What is reported of a group: its first mapped method, and the first that is mapped to another
name. -/
def GroupReport (group : LinkGroup) (p : Problem) : Prop :=
  ∃ first x second y, Draft.firstMapped? mappings g group = some first ∧
    mappings.methodName (g.keyOf first) = some x ∧
    (group.members.toList.find? fun id => (mappings.methodName (g.keyOf id)).any (· != x)) =
      some second ∧
    mappings.methodName (g.keyOf second) = some y ∧
    p = .groupConflict (g.describe first ++ " -> " ++ x) (g.describe second ++ " -> " ++ y)

/-- What is reported of classes: nothing where all have names of their own, else the first that has
the name of one before it. -/
inductive ClassReport : List Problem → Prop
  | apart : g.classes.toList.Pairwise (fun a b => Draft.hasSay a → Draft.hasSay b →
        mappings.className a.name ≠ mappings.className b.name) →
      ClassReport []
  | clash {before after : List ClassShape} {first second : ClassShape} :
      g.classes.toList.filter Draft.hasSay = before ++ second :: after →
      before.Pairwise (fun a b => mappings.className a.name ≠ mappings.className b.name) →
      first ∈ before → mappings.className first.name = mappings.className second.name →
      ClassReport [.conflict (mappings.className second.name) first.name second.name
        (mappings.className second.name)]

/-- What is reported of a member: the first member it collides with, and what both would be. -/
def MemberReport (id : MemberPlace) (p : Problem) : Prop :=
  ∃ first, ((g.membersOf id.owner).find? fun other => mappings.Collide g options other id) =
      some first ∧
    p = .conflict (g.classAt id.owner).name (g.describe first) (g.describe id)
      (Draft.targetText (g.memberAt id).isMethod (mappings.memberAfter g options id))

/-- Problems that report each conflict once, in order. -/
def Report (problems : List Problem) : Prop :=
  ∃ groups classes members, problems = groups ++ classes ++ members ∧
    -- One for each group at odds.
    List.Forall₂ (mappings.GroupReport g)
      ((Linkage.ofGraph g options).groups.toList.filter (mappings.Disagree g)) groups ∧
    mappings.ClassReport g classes ∧
    -- One for each member of an input that collides with an earlier one.
    List.Forall₂ (mappings.MemberReport g options)
      (g.allMembers.filter fun id =>
        (g.classAt id.owner).isInput && mappings.CollidesEarlier g options id) members

end Mapping.Renames

namespace Draft

variable {r : Decisions} {g : Graph} {mappings : Mapping.Renames} {options : Options}

/-! ### Names after the first step -/

/-- Before any name is taken back classes have the names that the mappings give them. -/
theorem mapClass_named (name : String) : (named g mappings options).decisions.mapClass name =
    (mappings.mapClass name).filter (· != name) := by
  rw [named, decisions_takeNames]
  simp [Decisions.mapClass, start]

theorem getD_mapClass_named (name : String) :
    ((named g mappings options).decisions.mapClass name).getD name = mappings.className name := by
  rw [mapClass_named, Mapping.Renames.className]
  cases mappings.mapClass name with
  | none => rfl
  | some new =>
    by_cases hown : new = name
    · simp [Option.filter, hown]
    · simp [Option.filter, hown]

theorem graph_named : (named g mappings options).decisions.graph = g := by
  rw [named, decisions_takeNames]
  rfl

/-- The name of a group in terms of its first mapped method. -/
theorem chooseName_fst (r : Decisions) (group : LinkGroup) : (chooseName r group).1 =
    (firstMapped? r.mappings r.graph group).bind fun first =>
      (r.mappings.methodName (r.graph.keyOf first)).filter (· != (r.graph.memberAt first).name) := by
  rw [firstMapped?_eq_head?]
  unfold chooseName
  cases hlist : mappedMembers r group with
  | nil => rfl
  | cons entry rest =>
    obtain ⟨first, name⟩ := entry
    have hfirst : (first, name) ∈ mappedMembers r group := by simp [hlist]
    have hname := (mem_mappedMembers.1 hfirst).2
    simp only [List.head?_cons, Option.map_some, Option.bind_some, hname]
    -- A group that keeps its name is given none.
    by_cases hown : name = (r.graph.memberAt first).name
    · simp [Option.filter, hown]
    · simp [Option.filter, hown]

/-- The first step gives a member the new name that the mappings ask for. -/
theorem newName_named (hg : g.WellNumbered) {id : MemberPlace} (hid : g.Declares id) :
    (named g mappings options).decisions.newName id = mappings.newMember g options id := by
  rw [named, decisions_takeNames, Decisions.newName, Mapping.Renames.newMember]
  -- A method is named by its group, a field by itself.
  by_cases hmethod : (g.memberAt id).isMethod
  · refine (if_pos hmethod).trans (Eq.trans ?_ (if_pos hmethod).symm)
    have hchosen : ∀ k : Nat, (chosenNames (start g mappings options).decisions).getD k none =
        ((Linkage.ofGraph g options).groups[k]?).bind fun group =>
          (chooseName (start g mappings options).decisions group).1 := by
      intro k
      rw [chosenNames, Array.getD_eq_getD_getElem?, Array.getElem?_map]
      show Option.getD (((Linkage.ofGraph g options).groups[k]?).map _) none = _
      cases (Linkage.ofGraph g options).groups[k]? <;> rfl
    show ((Linkage.ofGraph g options).groupNumber? g id).bind (fun k =>
      (chosenNames (start g mappings options).decisions).getD k none) = _
    simp only [hchosen, chooseName_fst, Linkage.group?, Option.bind_eq_bind, Option.bind_assoc]
    rfl
  · refine (if_neg hmethod).trans (Eq.trans ?_ (if_neg hmethod).symm)
    refine (getD_chosenFields hg rfl hid).trans ?_
    exact if_neg hmethod

/-- The first step gives members the names and descriptors that the mappings ask for. -/
theorem memberAfter_named (hg : g.WellNumbered) {id : MemberPlace} (hid : g.Declares id) :
    (named g mappings options).decisions.memberAfter id = mappings.memberAfter g options id := by
  have hdesc : Descriptor.rename (named g mappings options).decisions.mapClass
      (g.memberAt id).desc = mappings.descriptor (g.memberAt id).desc :=
    Descriptor.rename_congr fun name _ => getD_mapClass_named name
  rw [Decisions.memberAfter, newName_named hg hid, graph_named, hdesc]
  rfl

/-- Two members have one key iff they collide. -/
theorem targetKey_named_eq_iff (hg : g.WellNumbered) {a b : MemberPlace} (ha : g.Declares a)
    (hb : g.Declares b) :
    targetKey (named g mappings options).decisions a =
      targetKey (named g mappings options).decisions b ↔ mappings.Collide g options a b := by
  rw [targetKey, targetKey, memberAfter_named hg ha, memberAfter_named hg hb, Prod.mk.injEq,
    graph_named, MemberShape.isMethod_eq_iff, Mapping.Renames.Collide]

/-! ### Groups -/

/-- The first mapped member with another name than `x`. -/
theorem find?_mappedMembers {group : LinkGroup} {second : MemberPlace} {x y : String} :
    (mappedMembers r group).find? (fun entry => entry.2 != x) = some (second, y) ↔
      (group.members.toList.find? fun id =>
        (r.mappings.methodName (r.graph.keyOf id)).any (· != x)) = some second ∧
        r.mappings.methodName (r.graph.keyOf second) = some y := by
  rw [mappedMembers, List.find?_filterMap, Option.bind_eq_some_iff]
  simp only [Option.any_map, Option.map_eq_some_iff, Prod.mk.injEq]
  constructor
  · rintro ⟨_, hfound, _, hname, rfl, rfl⟩
    exact ⟨hfound, hname⟩
  · rintro ⟨hfound, hname⟩
    exact ⟨second, hfound, y, hname, rfl, rfl⟩

/-- A group is in conflict with its first mapped method and the first with another name. -/
theorem chooseName_snd {group : LinkGroup} {first second : MemberPlace} {x y : String}
    (h : (chooseName r group).2 = some ((first, x), (second, y))) :
    firstMapped? r.mappings r.graph group = some first ∧
      r.mappings.methodName (r.graph.keyOf first) = some x ∧
      (group.members.toList.find? fun id =>
        (r.mappings.methodName (r.graph.keyOf id)).any (· != x)) = some second ∧
      r.mappings.methodName (r.graph.keyOf second) = some y := by
  unfold chooseName at h
  rw [firstMapped?_eq_head?, ← find?_mappedMembers]
  cases hlist : mappedMembers r group with
  | nil =>
    rw [hlist] at h
    cases h
  | cons entry rest =>
    obtain ⟨first, x⟩ := entry
    rw [hlist] at h
    obtain ⟨found, hfound, ⟨⟩⟩ := Option.map_eq_some_iff.1 h
    have hfirst : (first, x) ∈ mappedMembers r group := by simp [hlist]
    refine ⟨rfl, (mem_mappedMembers.1 hfirst).2, ?_⟩
    -- The first one has its own name, so the search does not stop there.
    rw [List.find?_cons_of_neg (by simp)]
    exact hfound

/-- A group is in conflict iff two of its methods are mapped to different names. -/
theorem isSome_chooseName_snd {group : LinkGroup} :
    ((chooseName r group).2).isSome ↔ r.mappings.Disagree r.graph group := by
  constructor
  · intro h
    obtain ⟨⟨⟨first, x⟩, ⟨second, y⟩⟩, hconflict⟩ := Option.isSome_iff_exists.1 h
    obtain ⟨hfirst, hx, hsecond, hy⟩ := chooseName_snd hconflict
    have hne : y ≠ x := by simpa [hy] using List.find?_some hsecond
    refine ⟨first, List.mem_of_find?_eq_some hfirst, second, List.mem_of_find?_eq_some hsecond, ?_⟩
    simp [hx, hy, hne.symm]
  · rintro ⟨a, ha, b, hb, hamapped, hbmapped, hne⟩
    obtain ⟨x, hx⟩ := Option.isSome_iff_exists.1 hamapped
    obtain ⟨y, hy⟩ := Option.isSome_iff_exists.1 hbmapped
    have hmem : (a, x) ∈ mappedMembers r group := mem_mappedMembers.2 ⟨by simpa using ha, hx⟩
    have hmem' : (b, y) ∈ mappedMembers r group := mem_mappedMembers.2 ⟨by simpa using hb, hy⟩
    have hxy : x ≠ y := fun heq => hne (by rw [hx, hy, heq])
    unfold chooseName
    cases hlist : mappedMembers r group with
    | nil =>
      rw [hlist] at hmem
      cases hmem
    | cons entry rest =>
      obtain ⟨first, name⟩ := entry
      rw [hlist] at hmem hmem'
      -- One of the two has another name than the first, and so is not the first itself.
      have hother : ∃ entry ∈ rest, entry.2 ≠ name := by
        by_cases hname : x = name
        · refine ⟨(b, y), List.mem_of_ne_of_mem (fun heq => ?_) hmem', ?_⟩
          · exact hxy (hname.trans (Prod.mk.inj heq).2.symm)
          · exact fun heq => hxy (hname.trans heq.symm)
        · exact ⟨(a, x), List.mem_of_ne_of_mem (fun heq => hname (Prod.mk.inj heq).2) hmem, hname⟩
      obtain ⟨other, hother, hne'⟩ := hother
      rw [Option.isSome_map, List.find?_isSome]
      exact ⟨other, hother, by simpa using hne'⟩

/-- What is reported of the conflict of a group. -/
def groupProblem (r : Decisions) : (MemberPlace × String) × (MemberPlace × String) → Problem
  | ((first, name), (second, other)) => .groupConflict (r.describeMember first ++ " -> " ++ name)
      (r.describeMember second ++ " -> " ++ other)

/-- Each group at odds is reported once, in order. -/
theorem forall₂_nameConflicts (r : Decisions) : List.Forall₂ (r.mappings.GroupReport r.graph)
    (r.linkage.groups.toList.filter (r.mappings.Disagree r.graph))
    ((nameConflicts r).map (groupProblem r)) := by
  have hconflicts := forall₂_filterMap (fun group => (chooseName r group).2)
    r.linkage.groups.toList
  -- A group is at odds exactly where choosing its name has a conflict.
  have hfilter : (fun group => decide (r.mappings.Disagree r.graph group)) =
      fun group => ((chooseName r group).2).isSome := by
    funext group
    rw [← Bool.coe_iff_coe, decide_eq_true_iff, isSome_chooseName_snd]
  rw [hfilter, List.forall₂_map_right_iff]
  refine hconflicts.imp ?_
  rintro group ⟨⟨first, x⟩, ⟨second, y⟩⟩ hconflict
  obtain ⟨hfirst, hx, hsecond, hy⟩ := chooseName_snd hconflict
  exact ⟨first, x, second, y, hfirst, hx, hsecond, hy, rfl⟩

/-! ### Classes -/

/-- The clash of classes that is left is reported as one problem. -/
theorem classReport_classProblems (hgraph : r.graph = g)
    (hnames : ∀ name, r.className name = mappings.className name) :
    mappings.ClassReport g (classProblems r) := by
  unfold classProblems
  -- No two classes clash, or the first two that do.
  split
  · next hnone =>
    refine .apart ?_
    simpa only [hnames, hgraph] using classClash?_eq_none_iff.1 hnone
  · next first second target hclash =>
    obtain ⟨before, c, after, c', hsplit, hbefore, hc', hsame, rfl, rfl, rfl⟩ :=
      exists_of_classClash? hclash
    simp only [hnames, hgraph] at hsplit hbefore hsame ⊢
    exact .clash hsplit hbefore hc' hsame

/-! ### Members -/

/-- Each member of a class that collides with an earlier one is reported once, in order. -/
theorem forall₂_report_clashesIn (hg : g.WellNumbered) (owner : ClassPlace) :
    List.Forall₂ (mappings.MemberReport g options)
      ((g.membersOf owner).filter (mappings.CollidesEarlier g options))
      ((clashesIn (named g mappings options).decisions owner).map
        (clashProblem (named g mappings options).decisions)) := by
  have hfound := forall₂_clashesIn (named g mappings options).decisions owner
  rw [graph_named] at hfound
  -- In this class the keys agree exactly where the members collide.
  have hkey : ∀ a ∈ g.membersOf owner, ∀ b ∈ g.membersOf owner,
      (targetKey (named g mappings options).decisions a =
        targetKey (named g mappings options).decisions b ↔ mappings.Collide g options a b) :=
    fun a ha b hb => targetKey_named_eq_iff hg (Graph.mem_membersOf.1 ha).2
      (Graph.mem_membersOf.1 hb).2
  have hfilter : (g.membersOf owner).filter (mappings.CollidesEarlier g options) =
      (g.membersOf owner).filter
        (Repeats (named g mappings options).decisions (g.membersOf owner)) := by
    refine List.filter_congr fun id hid => decide_eq_decide.2 ?_
    obtain ⟨howner, -⟩ := Graph.mem_membersOf.1 hid
    rw [Mapping.Renames.CollidesEarlier, howner]
    exact exists_congr fun other => and_congr_right fun hother =>
      and_congr_right fun _ => (hkey other hother id hid).symm
  rw [hfilter, List.forall₂_map_right_iff]
  have hmem : ∀ id ∈ (g.membersOf owner).filter
      (Repeats (named g mappings options).decisions (g.membersOf owner)), id ∈ g.membersOf owner :=
    fun id hid => List.mem_of_mem_filter hid
  refine ((List.forall₂_and_left _ _).2 ⟨hmem, hfound⟩).imp ?_
  rintro id clash ⟨hid, howner, rfl, hfirst, htarget⟩
  obtain ⟨howner', hdeclares⟩ := Graph.mem_membersOf.1 hid
  refine ⟨clash.first, ?_, ?_⟩
  · rw [howner', ← hfirst]
    exact List.find?_congr fun other hother => decide_eq_decide.2 (hkey other hother _ hid).symm
  · have hafter : (named g mappings options).decisions.memberAfter clash.second =
        mappings.memberAfter g options clash.second := memberAfter_named hg hdeclares
    rw [clashProblem, howner, ← howner', htarget, targetKey, hafter]
    simp only [Decisions.describeMember, graph_named, Graph.describe]

/-- The members of inputs are gone through class by class. -/
theorem filter_allMembers (g : Graph) (p : MemberPlace → Bool) :
    (g.allMembers.filter fun id => (g.classAt id.owner).isInput && p id) =
      (g.places.filter fun c => (g.classAt c).isInput).flatMap fun c =>
        (g.membersOf c).filter p := by
  rw [Graph.allMembers, List.filter_flatMap]
  induction g.places with
  | nil => rfl
  | cons c rest ih =>
    -- Whether a member is of an input depends on its class only.
    have hclass : (g.membersOf c).filter (fun id => (g.classAt id.owner).isInput && p id) =
        if (g.classAt c).isInput then (g.membersOf c).filter p else [] := by
      have howner : ∀ id ∈ g.membersOf c, ((g.classAt id.owner).isInput && p id) =
          ((g.classAt c).isInput && p id) := fun id hid => by rw [(Graph.mem_membersOf.1 hid).1]
      rw [List.filter_congr howner]
      cases (g.classAt c).isInput <;> simp
    rw [List.flatMap_cons, ih, hclass, List.filter_cons]
    split
    · rw [List.flatMap_cons]
    · rw [List.nil_append]

/-- Each member of an input that collides with an earlier one is reported once, in order. -/
theorem forall₂_memberClashes (hg : g.WellNumbered) :
    List.Forall₂ (mappings.MemberReport g options)
      (g.allMembers.filter fun id =>
        (g.classAt id.owner).isInput && mappings.CollidesEarlier g options id)
      ((named g mappings options).memberClashes.map
        (clashProblem (named g mappings options).decisions)) := by
  rw [filter_allMembers, memberClashes, List.map_flatMap, graph_named]
  refine List.rel_flatMap (R := Eq) (List.forall₂_refl _) ?_
  rintro owner _ rfl
  exact forall₂_report_clashesIn hg owner

/-! ### All steps -/

/-- Where conflicts are not ignored no name is taken back. -/
theorem settled_eq_named (g : Graph) (mappings : Mapping.Renames)
    (hstrict : options.ignoreConflicts = false) :
    classesSettled g mappings options = named g mappings options ∧
      settled g mappings options = named g mappings options := by
  have hclasses : classesSettled g mappings options = named g mappings options :=
    (endsAt_settleClasses _ options).1.eq_of_eq_none (classPass_eq_none hstrict _)
  refine ⟨hclasses, ?_⟩
  rw [settled, hclasses]
  exact (endsAt_settleMembers _ options).1.eq_of_eq_none (memberPass_eq_none hstrict _)

/-- The problems of all steps report each conflict once. -/
theorem report_problems (hg : g.WellNumbered) (hstrict : options.ignoreConflicts = false) :
    mappings.Report g options (((start g mappings options).takeNames options).1 ++
      ((named g mappings options).settleClasses options).1 ++
      ((classesSettled g mappings options).settleMembers options).1) := by
  obtain ⟨hclasses, hmembers⟩ := settled_eq_named g mappings hstrict
  refine ⟨_, _, _, rfl, ?_, ?_, ?_⟩
  -- Groups, then classes, then members, each of them reported by its own step.
  · simp only [takeNames, hstrict, Bool.false_eq_true, if_false]
    exact forall₂_nameConflicts (start g mappings options).decisions
  · rw [(endsAt_settleClasses _ options).2, ← classesSettled, hclasses]
    exact classReport_classProblems graph_named getD_mapClass_named
  · rw [(endsAt_settleMembers _ options).2, ← settled, hmembers]
    exact forall₂_memberClashes hg

end Draft

namespace Mapping.Renames

variable {mappings : Renames} {g : Graph} {options : Options}

/-- No class is reported iff all have names of their own. -/
theorem ClassReport.eq_nil_iff {problems : List Problem} (h : mappings.ClassReport g problems) :
    problems = [] ↔ g.classes.toList.Pairwise fun a b => Draft.hasSay a → Draft.hasSay b →
      mappings.className a.name ≠ mappings.className b.name := by
  cases h with
  | apart hnames => exact iff_of_true rfl hnames
  | @clash before after first second hsplit _ hfirst hsame =>
    refine iff_of_false (by simp) fun hnames => ?_
    rw [← List.pairwise_filter, hsplit] at hnames
    exact (List.pairwise_append.1 hnames).2.2 first hfirst second List.mem_cons_self hsame

/-- No member of an input collides with an earlier one iff no two collide. -/
theorem filter_collidesEarlier_eq_nil_iff :
    (g.allMembers.filter fun id =>
      (g.classAt id.owner).isInput && mappings.CollidesEarlier g options id) = [] ↔
      ∀ a b, g.Declares a → g.Declares b → a ≠ b → a.owner = b.owner →
        (g.classAt a.owner).isInput → ¬ mappings.Collide g options a b := by
  simp only [List.filter_eq_nil_iff, Graph.mem_allMembers, Bool.and_eq_true, decide_eq_true_eq,
    not_and]
  constructor
  · intro hnone a b ha hb hne howner hinput hcollide
    -- Of two members that collide, the later one collides with an earlier.
    rcases Nat.lt_trichotomy a.index b.index with hlt | heq | hlt
    · refine hnone b hb (howner ▸ hinput) ⟨a, ?_, hlt, hcollide⟩
      exact Graph.mem_membersOf.2 ⟨howner, ha⟩
    · cases a
      cases b
      exact hne (by simp_all)
    · refine hnone a ha hinput ⟨b, ?_, hlt, hcollide.1.symm, hcollide.2.symm⟩
      exact Graph.mem_membersOf.2 ⟨howner.symm, hb⟩
  · rintro hapart id hid hinput ⟨other, hother, hlt, hcollide⟩
    obtain ⟨howner, hdeclares⟩ := Graph.mem_membersOf.1 hother
    have hne : other ≠ id := fun heq => Nat.ne_of_lt hlt (congrArg MemberPlace.index heq)
    exact hapart other id hdeclares hid hne howner (howner ▸ hinput) hcollide

/-- Nothing is reported iff all names go together. -/
theorem Report.eq_nil_iff {problems : List Problem} (h : mappings.Report g options problems) :
    problems = [] ↔ mappings.Harmonious g options := by
  obtain ⟨groups, classes, members, rfl, hgroups, hclasses, hmembers⟩ := h
  -- A report is empty where each of its parts is.
  rw [List.append_eq_nil_iff, List.append_eq_nil_iff, ← eq_nil_iff_of_forall₂ hgroups,
    hclasses.eq_nil_iff, ← eq_nil_iff_of_forall₂ hmembers, filter_collidesEarlier_eq_nil_iff,
    List.filter_eq_nil_iff]
  constructor
  · rintro ⟨⟨hgroups, hclasses⟩, hmembers⟩
    exact ⟨fun group hgroup => by simpa using hgroups group (by simpa using hgroup), hclasses,
      hmembers⟩
  · rintro ⟨hgroups, hclasses, hmembers⟩
    exact ⟨⟨fun group hgroup => by simpa using hgroups group (by simpa using hgroup), hclasses⟩,
      hmembers⟩

end Mapping.Renames

namespace Decisions

variable {g : Graph} {mappings : Mapping.Renames} {options : Options} {r : Decisions}
  {warnings : List Warning}

/-- Decisions that give everything the name that the mappings ask for. -/
structure AsAsked (g : Graph) (mappings : Mapping.Renames) (options : Options) (r : Decisions) :
    Prop where
  graph : r.graph = g
  linkage : r.linkage = Linkage.ofGraph g options
  mapClass : ∀ name, r.mapClass name = (mappings.mapClass name).filter (· != name)
  newName : ∀ id, g.Declares id → r.newName id = mappings.newMember g options id
  memberAfter : ∀ id, g.Declares id → r.memberAfter id = mappings.memberAfter g options id

/-- What is reported where no decisions are made are the problems of all steps. -/
theorem ofGraph_error {problems : List Problem} (h : ofGraph g mappings options = .error problems) :
    problems = ((Draft.start g mappings options).takeNames options).1 ++
      ((Draft.named g mappings options).settleClasses options).1 ++
      ((Draft.classesSettled g mappings options).settleMembers options).1 := by
  simp only [ofGraph] at h
  split at h
  · cases h
  · exact (Except.error.inj h).symm

/-- Where conflicts are not ignored and decisions are made, nothing keeps its name against the
mappings. -/
theorem asAsked_of_ofGraph (hg : g.WellNumbered)
    (h : ofGraph g mappings options = .ok (r, warnings))
    (hstrict : options.ignoreConflicts = false) : r.AsAsked g mappings options := by
  obtain ⟨-, members, classes, rfl⟩ := ofGraph_strict h hstrict
  -- What becomes public is no matter of names.
  have hnamed := Draft.decisions_takeNames (Draft.start g mappings options) options
  have hmapClass := @Draft.mapClass_named g mappings options
  have hnewName := @Draft.newName_named g mappings options hg
  have hmemberAfter := @Draft.memberAfter_named g mappings options hg
  rw [Draft.named, hnamed] at hmapClass hnewName hmemberAfter
  exact ⟨rfl, rfl, hmapClass, fun _ => hnewName, fun _ => hmemberAfter⟩

/-- Where conflicts are not ignored, decisions are made iff the names that the mappings ask for go
together. -/
theorem isOk_ofGraph_iff_harmonious (hg : g.WellNumbered)
    (hstrict : options.ignoreConflicts = false) :
    (∃ result, ofGraph g mappings options = .ok result) ↔ mappings.Harmonious g options := by
  rw [isOk_ofGraph_iff, ← (Draft.report_problems hg hstrict).eq_nil_iff, List.append_eq_nil_iff,
    List.append_eq_nil_iff, and_assoc]

/-- Where conflicts are not ignored, decisions are made iff the names that the mappings ask for go
together, and are then those. Otherwise each conflict is reported once: each group whose methods are
mapped to different names, one pair of classes, and each member of an input that collides with an
earlier one. -/
theorem conflicts_of_ofGraph {shapes : List ClassShape} (hstrict : options.ignoreConflicts = false) :
    ((∃ result, ofGraph (.ofShapes shapes) mappings options = .ok result) ↔
      mappings.Harmonious (.ofShapes shapes) options) ∧
    (∀ r warnings, ofGraph (.ofShapes shapes) mappings options = .ok (r, warnings) →
      r.AsAsked (.ofShapes shapes) mappings options) ∧
    ∀ problems, ofGraph (.ofShapes shapes) mappings options = .error problems →
      mappings.Report (.ofShapes shapes) options problems := by
  have hg := Graph.wellNumbered_ofShapes shapes
  generalize Graph.ofShapes shapes = g at hg
  refine ⟨isOk_ofGraph_iff_harmonious hg hstrict, fun r warnings h => asAsked_of_ofGraph hg h hstrict,
    fun problems h => ?_⟩
  -- Where the resolution fails, the problems of the three steps are all there is.
  rw [ofGraph_error h]
  exact Draft.report_problems hg hstrict

/-! ### Two overloads that become one -/

theorem membersOf_overloads : overloads.membersOf 0 = [⟨0, 0⟩, ⟨0, 1⟩] := by
  rw [Graph.membersOf, classAt_overloads]
  rfl

/-- There are no other members. -/
theorem allMembers_overloads : overloads.allMembers = [⟨0, 0⟩, ⟨0, 1⟩] := by
  have hplaces : overloads.places = [0] := by
    rw [Graph.places, Graph.size, classes_overloads]
    rfl
  rw [Graph.allMembers, hplaces, List.flatMap_singleton, membersOf_overloads]

/-- The mappings leave the name of `f` as it is, and make its two descriptors one. -/
theorem memberAfter_merging (options : Options) :
    merging.memberAfter overloads options ⟨0, 0⟩ = ("f", "(LY;)V") ∧
      merging.memberAfter overloads options ⟨0, 1⟩ = ("f", "(LY;)V") := by
  obtain ⟨hfirst, hsecond⟩ := memberAt_overloads
  have hnone : ∀ group, Draft.firstMapped? merging overloads group = none := fun group => by
    simp [Draft.firstMapped?, Mapping.Renames.methodName, merging]
  have hclasses : merging.mapClass "X" = some "Y" ∧ merging.mapClass "Y" = none := by
    simp [Mapping.Renames.mapClass, merging, Nested.rename, Nested.answer, Nested.renameOuter]
  have hdesc : merging.descriptor "(LX;)V" = "(LY;)V" ∧ merging.descriptor "(LY;)V" = "(LY;)V" := by
    simp [Mapping.Renames.descriptor, Descriptor.rename, Descriptor.segments,
      Descriptor.segmentsFrom, Descriptor.Segment.rename, Descriptor.Segment.chars,
      Descriptor.ClassMap.image, hclasses]
  -- Without a row for it no method has a new name.
  have hnewMember : ∀ id, (overloads.memberAt id).isMethod →
      merging.newMember overloads options id = none := fun id hmethod => by
    rw [Mapping.Renames.newMember, if_pos hmethod]
    simp [hnone]
  constructor
  · rw [Mapping.Renames.memberAfter, hnewMember _ (by rw [hfirst]; rfl), hfirst]
    exact Prod.ext rfl hdesc.1
  · rw [Mapping.Renames.memberAfter, hnewMember _ (by rw [hsecond]; rfl), hsecond]
    exact Prod.ext rfl hdesc.2

/-- The mappings give the two overloads one name and descriptor, and that is all there is to
report. -/
theorem conflicts_of_ofGraph_overloads :
    ({} : Options).ignoreConflicts = false ∧ ¬ merging.Harmonious overloads {} ∧
      ofGraph overloads merging {} =
        .error [.conflict "C" "C.f(LX;)V" "C.f(LY;)V" "f(LY;)V"] := by
  obtain ⟨hok, -, herror⟩ := @conflicts_of_ofGraph merging {} [overloadsShape] rfl
  rw [← overloads] at hok herror
  obtain ⟨hafter, hafter'⟩ := memberAfter_merging {}
  obtain ⟨hfirst, hsecond⟩ := memberAt_overloads
  have hcollide : merging.Collide overloads {} ⟨0, 0⟩ ⟨0, 1⟩ :=
    ⟨by rw [hfirst, hsecond]; rfl, hafter.trans hafter'.symm⟩
  have hinput : (overloads.classAt 0).isInput := by
    rw [classAt_overloads]
    rfl
  have hnot : ¬ merging.Harmonious overloads {} := fun h =>
    h.members ⟨0, 0⟩ ⟨0, 1⟩ (declares_overloads.2 (.inl rfl)) (declares_overloads.2 (.inr rfl))
      (by decide) rfl hinput hcollide
  refine ⟨rfl, hnot, ?_⟩
  rcases hresult : ofGraph overloads merging {} with problems | result
  · obtain ⟨groups, classes, members, rfl, hgroups, hclasses, hmembers⟩ := herror problems hresult
    have hagree : ∀ group, ¬ merging.Disagree overloads group := by
      rintro group ⟨a, -, b, -, hmapped, -⟩
      simp [Mapping.Renames.methodName, merging] at hmapped
    have hgroups : groups = [] :=
      (eq_nil_iff_of_forall₂ hgroups).1 (List.filter_eq_nil_iff.2 fun group _ => by
        simpa using hagree group)
    have hclasses : classes = [] := hclasses.eq_nil_iff.2 (by simp [classes_overloads])
    -- The first overload has none before it, the second has the first.
    have hlater : ¬ merging.CollidesEarlier overloads {} ⟨0, 0⟩ := by
      rintro ⟨other, -, hlt, -⟩
      exact Nat.not_lt_zero _ hlt
    have hlater' : merging.CollidesEarlier overloads {} ⟨0, 1⟩ :=
      ⟨⟨0, 0⟩, by simp [membersOf_overloads], Nat.zero_lt_one, hcollide⟩
    rw [allMembers_overloads] at hmembers
    simp only [List.filter_cons, hinput, Bool.true_and, decide_eq_true_eq, hlater, hlater',
      if_false, if_true, List.filter_nil] at hmembers
    cases hmembers with
    | cons hreport hrest =>
      cases hrest
      obtain ⟨first, hfind, rfl⟩ := hreport
      simp only [membersOf_overloads, List.find?_cons, decide_eq_true hcollide] at hfind
      obtain rfl := Option.some.inj hfind
      rw [hgroups, hclasses, hafter', Graph.describe, Graph.describe, hfirst, hsecond,
        classAt_overloads]
      rfl
  · exact absurd (hok.1 ⟨result, hresult⟩) hnot

end Decisions

end Relabel
