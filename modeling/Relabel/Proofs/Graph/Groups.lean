import Relabel.Proofs.Graph.Edges

/-!
# Groups of linked methods

The groups are made while the methods are gone through in order: each goes into the group of its
root, which is opened with the first one. The invariant `Grouped` says that the group of a root
holds the methods met so far with that root, so that in the end the groups are the connected
components of `Edge`.

## Main results

- `Grouped.place`: putting one method into its group keeps the invariant.
- `components_ofGraph`: the groups are the connected components, in order, with their flags.
-/

namespace Relabel.Linkage

open Relation (EqvGen)

variable {g : Graph} {options : Options} {sets : UnionFind} {done : List MemberPlace}
  {id a b : MemberPlace}

/-! ### The methods in groups and their order -/

/-- A method that belongs to a group: any but the initializers. -/
structure Groupable (g : Graph) (id : MemberPlace) : Prop where
  declared : g.Declares id
  isMethod : (g.memberAt id).kind = .method
  ne_init : (g.memberAt id).name ≠ "<init>"
  ne_clinit : (g.memberAt id).name ≠ "<clinit>"

/-- Members of inputs come first; the others follow the order of their places. -/
def Precedes (g : Graph) (a b : MemberPlace) : Prop :=
  (g.classAt a.owner).isInput ∧ ¬ (g.classAt b.owner).isInput ∨
    ((g.classAt a.owner).isInput ↔ (g.classAt b.owner).isInput) ∧ a.Before b

/-- No member precedes itself. -/
theorem Precedes.ne (h : Precedes g a b) : a ≠ b := by
  rintro rfl
  rcases h with ⟨hinput, hnot⟩ | ⟨-, hbefore⟩
  · exact hnot hinput
  · rcases hbefore with hlt | ⟨-, hlt⟩ <;> exact Nat.lt_irrefl _ hlt

/-- The members that are grouped are the methods that can be. -/
theorem mem_groupedMembers : id ∈ groupedMembers g ↔ Groupable g id := by
  have hmethods : id ∈ groupedMembers g ↔ g.Declares id ∧
      ((g.memberAt id).isMethod && !(g.memberAt id).isInitializer) := by
    simp only [groupedMembers, List.mem_append, List.mem_filter, Graph.mem_allMembers]
    cases (g.classAt id.owner).isInput <;> simp
  rw [hmethods]
  simp only [MemberShape.isMethod, MemberShape.isInitializer, Bool.and_eq_true,
    Bool.not_eq_true', Bool.or_eq_false_iff, decide_eq_true_eq, decide_eq_false_iff_not]
  constructor
  · rintro ⟨hid, hkind, hinit, hclinit⟩
    exact ⟨hid, hkind, hinit, hclinit⟩
  · rintro ⟨hid, hkind, hinit, hclinit⟩
    exact ⟨hid, hkind, hinit, hclinit⟩

/-- The grouped members stand in their order. -/
theorem pairwise_groupedMembers (g : Graph) : (groupedMembers g).Pairwise (Precedes g) := by
  have hmethods := (Graph.pairwise_allMembers g).filter fun id =>
    (g.memberAt id).isMethod && !(g.memberAt id).isInitializer
  refine List.pairwise_append.2 ⟨?_, ?_, fun a ha b hb => ?_⟩
  -- Inputs stand in front of the others, and each part keeps the order of all members.
  · refine (hmethods.filter _).imp_of_mem fun {a b} ha hb hbefore => .inr ⟨?_, hbefore⟩
    simp [(List.mem_filter.1 ha).2, (List.mem_filter.1 hb).2]
  · refine (hmethods.filter _).imp_of_mem fun {a b} ha hb hbefore => .inr ⟨?_, hbefore⟩
    have hna := (List.mem_filter.1 ha).2
    have hnb := (List.mem_filter.1 hb).2
    rw [Bool.not_eq_true'] at hna hnb
    rw [hna, hnb]
  · refine .inl ⟨(List.mem_filter.1 ha).2, ?_⟩
    have hnb := (List.mem_filter.1 hb).2
    rwa [Bool.not_eq_true', ← Bool.not_eq_true] at hnb

/-! ### What a group holds -/

/-- The group of some methods. -/
def gather (g : Graph) (options : Options) (members : List MemberPlace) : LinkGroup where
  members := members.toArray
  forced := members.any fun id => options.forces (g.memberAt id).name (g.memberAt id).desc
  hasPrivate := members.any fun id => (g.memberAt id).access.isPrivate
  hasBridge := members.any fun id => (g.memberAt id).isBridge

/-- A group with one method more. -/
def put (g : Graph) (options : Options) (id : MemberPlace) (entry : LinkGroup) : LinkGroup where
  members := entry.members.push id
  forced := entry.forced || options.forces (g.memberAt id).name (g.memberAt id).desc
  hasPrivate := entry.hasPrivate || (g.memberAt id).access.isPrivate
  hasBridge := entry.hasBridge || (g.memberAt id).isBridge

/-- One more member is put where gathering it puts it. -/
theorem put_gather (members : List MemberPlace) :
    put g options id (gather g options members) = gather g options (members ++ [id]) := by
  simp [put, gather]

/-- What is known of the groups after the methods in `done`. -/
structure Grouped (g : Graph) (options : Options) (sets : UnionFind) (done : List MemberPlace)
    (state : Linkage × Std.HashMap Nat Nat) : Prop where
  /-- The group of a root holds the methods with that root. -/
  gathered : ∀ r k, state.2[r]? = some k → state.1.groups[k]? =
    some (gather g options (done.filter fun id => sets.root (g.number id) = r))
  rooted : ∀ r k, state.2[r]? = some k → ∃ id ∈ done, sets.root (g.number id) = r
  known : ∀ id ∈ done, ∃ k, state.2[sets.root (g.number id)]? = some k
  onto : ∀ k < state.1.groups.size, ∃ r : Nat, state.2[r]? = some k
  size_groupOf : state.1.groupOf.size = g.memberTotal
  noted : ∀ id, g.Declares id → state.1.groupNumber? g id =
    if id ∈ done then state.2[sets.root (g.number id)]? else none

namespace Grouped

variable {state : Linkage × Std.HashMap Nat Nat}

/-- Different roots have different groups. -/
theorem root_injective (h : Grouped g options sets done state) {r s k : Nat}
    (hr : state.2[r]? = some k) (hs : state.2[s]? = some k) : r = s := by
  obtain ⟨id, hid, rfl⟩ := h.rooted r k hr
  have hgather := (h.gathered _ k hr).symm.trans (h.gathered s k hs)
  -- A method with the first root is in the group, so it has the second root too.
  have hfilter := congrArg (fun group : LinkGroup => id ∈ group.members) (Option.some.inj hgather)
  simpa [gather, hid] using hfilter

theorem lt_size (h : Grouped g options sets done state) {r k : Nat} (hr : state.2[r]? = some k) :
    k < state.1.groups.size :=
  (Array.getElem?_eq_some_iff.1 (h.gathered r k hr)).1

/-- The place of the group that a root has or gets. -/
def groupFor (state : Linkage × Std.HashMap Nat Nat) (r : Nat) : Nat :=
  state.2[r]?.getD state.1.groups.size

/-- No other root has that group. -/
theorem ne_groupFor (h : Grouped g options sets done state) {r s : Nat} (hne : s ≠ r) :
    state.2[s]? ≠ some (groupFor state r) := by
  intro hs
  cases hr : state.2[r]? with
  | some k =>
    rw [groupFor, hr, Option.getD_some] at hs
    exact hne (h.root_injective hs hr)
  | none =>
    rw [groupFor, hr, Option.getD_none] at hs
    exact Nat.lt_irrefl _ (h.lt_size hs)

/-- Putting a method into its group changes that group alone. -/
theorem groups_place (h : Grouped g options sets done state) (id : MemberPlace) (k : Nat) :
    (Linkage.place g options sets state id).1.groups[k]? =
      if k = groupFor state (sets.root (g.number id)) then
        some (gather g options ((done.filter fun other =>
          sets.root (g.number other) = sets.root (g.number id)) ++ [id]))
      else state.1.groups[k]? := by
  generalize hroot : sets.root (g.number id) = r
  have hplace : (Linkage.place g options sets state id).1.groups =
      (if groupFor state r < state.1.groups.size then state.1.groups
        else state.1.groups.push {}).modify (groupFor state r) (put g options id) := by
    subst hroot
    rfl
  rw [hplace, Array.getElem?_modify, ← put_gather]
  cases hr : state.2[r]? with
  | some j =>
    have hfor : groupFor state r = j := by rw [groupFor, hr, Option.getD_some]
    have hold := h.gathered r j hr
    rw [hfor, if_pos (h.lt_size hr)]
    by_cases hk : j = k
    · subst hk
      rw [if_pos rfl, if_pos rfl, hold, Option.map_some]
    · rw [if_neg hk, if_neg (Ne.symm hk)]
  | none =>
    have hfor : groupFor state r = state.1.groups.size := by rw [groupFor, hr, Option.getD_none]
    -- A root without a group has no methods yet, so its group starts empty.
    have hempty : (done.filter fun other => sets.root (g.number other) = r) = [] := by
      refine List.filter_eq_nil_iff.2 fun other hother hsame => ?_
      obtain ⟨k, hk⟩ := h.known other hother
      rw [of_decide_eq_true hsame, hr] at hk
      exact absurd hk (by simp)
    rw [hfor, if_neg (Nat.lt_irrefl _), hempty]
    by_cases hk : state.1.groups.size = k
    · subst hk
      rw [if_pos rfl, if_pos rfl, Array.getElem?_push_size]
      rfl
    · rw [if_neg hk, if_neg (Ne.symm hk), Array.getElem?_push, if_neg (Ne.symm hk)]

/-- After a method its root has a group, and the groups of other roots stay. -/
theorem roots_place (state : Linkage × Std.HashMap Nat Nat) (id : MemberPlace) (r : Nat) :
    (Linkage.place g options sets state id).2[r]? =
      if r = sets.root (g.number id) then some (groupFor state (sets.root (g.number id)))
      else state.2[r]? := by
  have hplace : (Linkage.place g options sets state id).2 =
      state.2.insert (sets.root (g.number id)) (groupFor state (sets.root (g.number id))) := rfl
  rw [hplace, Std.HashMap.getElem?_insert]
  by_cases hr : r = sets.root (g.number id)
  · simp [hr]
  · rw [if_neg hr, if_neg (by simpa using Ne.symm hr)]

/-- One more member is among those of its own root only. -/
theorem filter_concat (done : List MemberPlace) (id : MemberPlace) (r : Nat) :
    ((done ++ [id]).filter fun other => sets.root (g.number other) = r) =
      (done.filter fun other => sets.root (g.number other) = r) ++
        if r = sets.root (g.number id) then [id] else [] := by
  by_cases hr : r = sets.root (g.number id)
  · simp [List.filter_append, hr]
  · simp [List.filter_append, hr, Ne.symm hr]

/-- Putting a method into its group keeps the invariant. -/
theorem place (hg : g.WellNumbered) (h : Grouped g options sets done state)
    (hid : g.Declares id) :
    Grouped g options sets (done ++ [id]) (Linkage.place g options sets state id) where
  gathered r k hr := by
    rw [roots_place] at hr
    rw [h.groups_place, filter_concat]
    by_cases hroot : r = sets.root (g.number id)
    · rw [if_pos hroot, Option.some.injEq] at hr
      rw [if_pos hr.symm, if_pos hroot, hroot]
    · rw [if_neg hroot] at hr
      -- Groups of other roots are other groups, which stay as they are.
      have hk : k ≠ groupFor state (sets.root (g.number id)) :=
        fun heq => h.ne_groupFor hroot (heq ▸ hr)
      rw [if_neg hk, if_neg hroot, List.append_nil, h.gathered r k hr]
  rooted r k hr := by
    rw [roots_place] at hr
    by_cases hroot : r = sets.root (g.number id)
    · exact ⟨id, by simp, hroot.symm⟩
    · rw [if_neg hroot] at hr
      obtain ⟨other, hother, hsame⟩ := h.rooted r k hr
      exact ⟨other, List.mem_append_left _ hother, hsame⟩
  known other hother := by
    rw [roots_place]
    by_cases hroot : sets.root (g.number other) = sets.root (g.number id)
    · exact ⟨_, if_pos hroot⟩
    · rw [if_neg hroot]
      rcases List.mem_append.1 hother with hdone | hlast
      · exact h.known other hdone
      · exact absurd (by rw [List.mem_singleton.1 hlast]) hroot
  onto k hk := by
    by_cases hfor : k = groupFor state (sets.root (g.number id))
    · exact ⟨sets.root (g.number id), by rw [roots_place, if_pos rfl, hfor]⟩
    · have hsome := Array.getElem?_eq_getElem hk
      rw [h.groups_place, if_neg hfor] at hsome
      obtain ⟨r, hr⟩ := h.onto k (Array.getElem?_eq_some_iff.1 hsome).1
      -- The root of the group is not that of the method, or the group would be the one it goes to.
      have hroot : r ≠ sets.root (g.number id) := by
        rintro rfl
        exact hfor (by rw [groupFor, hr, Option.getD_some])
      exact ⟨r, by rw [roots_place, if_neg hroot, hr]⟩
  size_groupOf := by
    rw [← h.size_groupOf]
    exact Array.size_setIfInBounds
  noted other hother := by
    have hplace : (Linkage.place g options sets state id).1.groupOf = state.1.groupOf.setIfInBounds
        (g.number id) (some (groupFor state (sets.root (g.number id)))) := rfl
    rw [groupNumber?, hplace, roots_place, Array.getD_eq_getD_getElem?,
      Array.getElem?_setIfInBounds]
    by_cases hsame : id = other
    · subst hsame
      have hlt : g.number id < state.1.groupOf.size := h.size_groupOf ▸ hg.number_lt hid
      simp [hlt]
    -- The table is written at the number of the method alone.
    · have hne : g.number id ≠ g.number other :=
        fun heq => hsame (hg.number_injective hid hother heq)
      have hnoted := h.noted other hother
      rw [groupNumber?, Array.getD_eq_getD_getElem?] at hnoted
      rw [if_neg hne, hnoted]
      by_cases hdone : other ∈ done
      · rw [if_pos hdone, if_pos (List.mem_append_left _ hdone)]
        by_cases hroot : sets.root (g.number other) = sets.root (g.number id)
        · obtain ⟨k, hk⟩ := h.known other hdone
          rw [if_pos hroot, ← hroot, groupFor, hk, Option.getD_some]
        · rw [if_neg hroot]
      · rw [if_neg hdone, if_neg (by simp [hdone, Ne.symm hsame])]

/-- Members placed one after the other are grouped by their roots. -/
theorem foldl (hg : g.WellNumbered) (members : List MemberPlace)
    (hmembers : ∀ id ∈ members, g.Declares id) :
    Grouped g options sets members (members.foldl (Linkage.place g options sets)
      ({ groupOf := Array.replicate g.memberTotal none }, {})) := by
  induction members using List.reverseRecOn with
  | nil =>
    refine ⟨by simp, by simp, by simp, by simp, by simp, fun id hid => ?_⟩
    simp [groupNumber?, Array.getD_eq_getD_getElem?, hg.number_lt hid]
  | append_singleton done id ih =>
    rw [List.foldl_append, List.foldl_cons, List.foldl_nil]
    exact (ih fun id hid => hmembers id (List.mem_append_left _ hid)).place hg
      (hmembers id (by simp))

/-- Every group holds the methods with one root. -/
theorem exists_root (h : Grouped g options sets done state) {k : Nat} {group : LinkGroup}
    (hk : state.1.groups[k]? = some group) : ∃ r, state.2[r]? = some k ∧
      group = gather g options (done.filter fun id => sets.root (g.number id) = r) := by
  obtain ⟨r, hr⟩ := h.onto k (Array.getElem?_eq_some_iff.1 hk).1
  exact ⟨r, hr, Option.some.inj (hk.symm.trans (h.gathered r k hr))⟩

end Grouped

/-! ### The groups of a graph -/

/-- A method stands in the group with a number. -/
def InGroup (l : Linkage) (k : Nat) (id : MemberPlace) : Prop :=
  ∃ group, l.groups[k]? = some group ∧ id ∈ group.members

/-- Groups that are the connected components of `Edge`. -/
structure Components (g : Graph) (options : Options) (l : Linkage) : Prop where
  /-- Every method but the initializers is in exactly one group. -/
  exists_unique : ∀ id, Groupable g id → ∃! k, l.InGroup k id
  /-- Nothing else is in a group. -/
  groupable : ∀ k id, l.InGroup k id → Groupable g id
  nonempty : ∀ k < l.groups.size, ∃ id, l.InGroup k id
  /-- Methods share a group iff a chain of edges leads from one to the other. -/
  linked : ∀ a b, Groupable g a → Groupable g b →
    ((∃ k, l.InGroup k a ∧ l.InGroup k b) ↔ EqvGen (Edge g options) a b)
  ordered : ∀ group ∈ l.groups, group.members.toList.Pairwise (Precedes g)
  nodup : ∀ group ∈ l.groups, group.members.toList.Nodup
  forced : ∀ group ∈ l.groups, group.forced ↔
    ∃ id ∈ group.members, options.forces (g.memberAt id).name (g.memberAt id).desc
  hasPrivate : ∀ group ∈ l.groups, group.hasPrivate ↔
    ∃ id ∈ group.members, (g.memberAt id).access.isPrivate
  hasBridge : ∀ group ∈ l.groups, group.hasBridge ↔
    ∃ id ∈ group.members, (g.memberAt id).isBridge
  /-- The table gives every member its group, and the others none. -/
  groupNumber : ∀ id, g.Declares id → ∀ k, l.groupNumber? g id = some k ↔ l.InGroup k id

/-- The invariant at the end, when all methods are in groups. -/
theorem exists_grouped (hg : g.WellNumbered) (options : Options) :
    ∃ byRoot, Grouped g options (Linkage.sets g options) (groupedMembers g)
      (ofGraph g options, byRoot) :=
  ⟨_, Grouped.foldl hg _ fun _ hid => (mem_groupedMembers.1 hid).declared⟩

namespace Grouped

variable {l : Linkage} {byRoot : Std.HashMap Nat Nat}

/-- A method is in the group of its root and in no other. -/
theorem inGroup_iff (h : Grouped g options sets (groupedMembers g) (l, byRoot)) {k : Nat} :
    l.InGroup k id ↔ Groupable g id ∧ byRoot[sets.root (g.number id)]? = some k := by
  constructor
  · rintro ⟨group, hk, hid⟩
    obtain ⟨r, hr, rfl⟩ := h.exists_root hk
    obtain ⟨hmem, hroot⟩ := List.mem_filter.1 (List.mem_toArray.1 hid)
    exact ⟨mem_groupedMembers.1 hmem, of_decide_eq_true hroot ▸ hr⟩
  · rintro ⟨hid, hr⟩
    exact ⟨_, h.gathered _ k hr, by simp [gather, mem_groupedMembers.2 hid]⟩

/-- The number of a member is that of the group it is in. -/
theorem groupNumber?_eq_some_iff (h : Grouped g options sets (groupedMembers g) (l, byRoot))
    (hid : g.Declares id) {k : Nat} : l.groupNumber? g id = some k ↔ l.InGroup k id := by
  have hnoted := h.noted id hid
  rw [h.inGroup_iff, ← mem_groupedMembers]
  by_cases hmem : id ∈ groupedMembers g
  · rw [hnoted, if_pos hmem, and_iff_right hmem]
  · rw [hnoted, if_neg hmem]
    simp [hmem]

end Grouped

/-- The groups of a graph are the connected components of its edges. -/
theorem components_ofGraph (shapes : List ClassShape) (options : Options) :
    Components (.ofShapes shapes) options (ofGraph (.ofShapes shapes) options) := by
  have hg := Graph.wellNumbered_ofShapes shapes
  obtain ⟨byRoot, h⟩ := exists_grouped hg options
  generalize Graph.ofShapes shapes = g at hg h
  -- Order and flags are about one group: it holds some of the methods, in their order.
  have hgather : ∀ group ∈ (ofGraph g options).groups, ∃ members : List MemberPlace,
      members.Sublist (groupedMembers g) ∧ group = gather g options members := by
    intro group hgroup
    obtain ⟨k, hk⟩ := Array.mem_iff_getElem?.1 hgroup
    obtain ⟨r, -, rfl⟩ := h.exists_root hk
    exact ⟨_, List.filter_sublist, rfl⟩
  have hordered : ∀ group ∈ (ofGraph g options).groups,
      group.members.toList.Pairwise (Precedes g) := by
    intro group hgroup
    obtain ⟨members, hsub, rfl⟩ := hgather group hgroup
    exact (pairwise_groupedMembers g).sublist hsub
  refine
    { exists_unique := fun id hid => ?_
      groupable := fun k id hk => (h.inGroup_iff.1 hk).1
      nonempty := fun k hk => ?_
      linked := fun a b ha hb => ?_
      ordered := hordered
      nodup := fun group hgroup => (hordered group hgroup).imp Precedes.ne
      forced := fun group hgroup => ?_
      hasPrivate := fun group hgroup => ?_
      hasBridge := fun group hgroup => ?_
      groupNumber := fun id hid k => h.groupNumber?_eq_some_iff hid }
  · obtain ⟨k, hk⟩ := h.known id (mem_groupedMembers.2 hid)
    refine ⟨k, h.inGroup_iff.2 ⟨hid, hk⟩, fun j hj => ?_⟩
    exact Option.some.inj ((h.inGroup_iff.1 hj).2.symm.trans hk)
  · obtain ⟨r, hr⟩ := h.onto k hk
    obtain ⟨id, hid, rfl⟩ := h.rooted r k hr
    exact ⟨id, h.inGroup_iff.2 ⟨mem_groupedMembers.1 hid, hr⟩⟩
  · rw [← root_eq_root_iff hg ha.declared hb.declared]
    constructor
    · rintro ⟨k, hka, hkb⟩
      exact h.root_injective (h.inGroup_iff.1 hka).2 (h.inGroup_iff.1 hkb).2
    · intro hroot
      obtain ⟨k, hk⟩ := h.known a (mem_groupedMembers.2 ha)
      exact ⟨k, h.inGroup_iff.2 ⟨ha, hk⟩, h.inGroup_iff.2 ⟨hb, hroot ▸ hk⟩⟩
  all_goals
    obtain ⟨members, -, rfl⟩ := hgather group hgroup
    simp [gather]

end Relabel.Linkage
