import Mathlib.Logic.Relation
import Relabel.Graph.Linkage
import Relabel.Proofs.Graph.Members
import Relabel.Proofs.Graph.UnionFind

/-!
# Edges between methods

`Edge` says which methods have to be named alike: those that one class sees under one name and
descriptor, bridges that the policy takes together, and a bridge and its target. The edges that are
joined are fewer, since of several methods with one key only the first is joined with each of the
others, but they connect the same methods.

## Main results

- `edge_of_mem_edges`: every joined pair is an edge.
- `connected_of_edge`: the ends of every edge are connected by joined pairs.
- `root_eq_root_iff`: two members have one root iff a chain of edges leads from one to the other.
-/

namespace Relabel.Linkage

open Relation (EqvGen)

variable {g : Graph} {options : Options} {a b : MemberPlace}

/-! ### The relation -/

/-- A member that is declared and takes part in overriding. -/
structure Taking (g : Graph) (options : Options) (id : MemberPlace) : Prop where
  declared : g.Declares id
  takesPart : takesPart options (g.memberAt id)

/-- Two members with one name and descriptor. -/
structure SameKey (g : Graph) (a b : MemberPlace) : Prop where
  name_eq : (g.memberAt a).name = (g.memberAt b).name
  desc_eq : (g.memberAt a).desc = (g.memberAt b).desc

/-- The condition of the policy under which a bridge is named like its target. -/
inductive Follows (g : Graph) (options : Options) (bridge target : MemberPlace) : Prop
  | always (policy : options.propagateBridges = .enabled)
  | erased (policy : options.propagateBridges = .compatible)
      (compatible :
        Descriptor.erasureCompatible (g.memberAt bridge).desc (g.memberAt target).desc)
      (overrides : ∃ c ∈ g.ancestorsOf bridge.owner, ∃ m ∈ (g.classAt c).members,
        m.kind = .method ∧ m.name = (g.memberAt bridge).name ∧ m.desc = (g.memberAt bridge).desc)

/-- Methods that have to be named alike. -/
inductive Edge (g : Graph) (options : Options) : MemberPlace → MemberPlace → Prop
  /-- Both are seen from one class, under one name and descriptor. -/
  | override {a b : MemberPlace} {c : ClassPlace} (class_lt : c < g.size)
      (left : Taking g options a) (right : Taking g options b)
      (left_mem : a.owner ∈ g.selfAndAncestors c) (right_mem : b.owner ∈ g.selfAndAncestors c)
      (same : SameKey g a b) : Edge g options a b
  /-- Both are bridges, wherever they stand. -/
  | bridges {a b : MemberPlace} (policy : options.propagateBridges = .enabled)
      (left : Taking g options a) (right : Taking g options b)
      (left_bridge : (g.memberAt a).isBridge) (right_bridge : (g.memberAt b).isBridge)
      (same : SameKey g a b) : Edge g options a b
  /-- The first is a bridge and forwards to the second. -/
  | target {a b : MemberPlace} {key : MemberKey} (left : Taking g options a)
      (right : Taking g options b) (bridge : (g.memberAt a).isBridge)
      (forwards : (g.memberAt a).forwardsTo = some key)
      (found : g.lookUpMember .method key = some b) (follows : Follows g options a b) :
      Edge g options a b

/-- The first end of an edge is a declared member. -/
theorem Edge.declared_left (h : Edge g options a b) : g.Declares a := by
  cases h with
  | override _ left => exact left.declared
  | bridges _ left => exact left.declared
  | target left => exact left.declared

/-- The second end of an edge is a declared member. -/
theorem Edge.declared_right (h : Edge g options a b) : g.Declares b := by
  cases h with
  | override _ _ right => exact right.declared
  | bridges _ _ right => exact right.declared
  | target _ right => exact right.declared

/-! ### Edges from the first with each key -/

/-- What the search for edges knows after the entries in `done`. -/
private structure Joined (done : List ((String × String) × Nat))
    (first : Std.HashMap (String × String) Nat) (edges : List (Nat × Nat)) : Prop where
  /-- The first entry with a key is remembered, and leads to every other one. -/
  reached : ∀ key n, (key, n) ∈ done →
    ∃ f, first[key]? = some f ∧ (f = n ∨ (f, n) ∈ edges)
  first_mem : ∀ key f, first[key]? = some f → (key, f) ∈ done
  sound : ∀ m n, (m, n) ∈ edges → ∃ key, (key, m) ∈ done ∧ (key, n) ∈ done

namespace Joined

variable {done : List ((String × String) × Nat)} {first : Std.HashMap (String × String) Nat}
  {edges : List (Nat × Nat)} {key : String × String} {n f : Nat}

/-- An entry whose key is known is joined with the first one. -/
private theorem later (h : Joined done first edges) (hfirst : first[key]? = some f) :
    Joined (done ++ [(key, n)]) first ((f, n) :: edges) where
  reached key' n' hmem := by
    rcases List.mem_append.1 hmem with hdone | hlast
    · obtain ⟨f', hf', hreached⟩ := h.reached key' n' hdone
      exact ⟨f', hf', hreached.imp_right (List.mem_cons_of_mem _)⟩
    · obtain ⟨rfl, rfl⟩ := Prod.mk.inj (List.mem_singleton.1 hlast)
      exact ⟨f, hfirst, .inr List.mem_cons_self⟩
  first_mem key' f' hf' := List.mem_append_left _ (h.first_mem key' f' hf')
  sound m n' hmem := by
    rcases List.mem_cons.1 hmem with heq | hold
    · obtain ⟨rfl, rfl⟩ := Prod.mk.inj heq
      exact ⟨key, List.mem_append_left _ (h.first_mem key m hfirst), by simp⟩
    · obtain ⟨key', hm, hn⟩ := h.sound m n' hold
      exact ⟨key', List.mem_append_left _ hm, List.mem_append_left _ hn⟩

/-- An entry with a new key becomes the first with it. -/
private theorem new (h : Joined done first edges) (hnone : first[key]? = none) :
    Joined (done ++ [(key, n)]) (first.insert key n) edges where
  reached key' n' hmem := by
    rcases List.mem_append.1 hmem with hdone | hlast
    · obtain ⟨f', hf', hreached⟩ := h.reached key' n' hdone
      -- The new key is none that was met, since those are remembered.
      have hne : key ≠ key' := by
        rintro rfl
        simp [hnone] at hf'
      exact ⟨f', by simpa [Std.HashMap.getElem?_insert, hne] using hf', hreached⟩
    · obtain ⟨rfl, rfl⟩ := Prod.mk.inj (List.mem_singleton.1 hlast)
      exact ⟨n', Std.HashMap.getElem?_insert_self, .inl rfl⟩
  first_mem key' f' hf' := by
    by_cases hkey : key = key'
    · subst hkey
      rw [Std.HashMap.getElem?_insert_self, Option.some.injEq] at hf'
      simp [hf']
    · rw [Std.HashMap.getElem?_insert, if_neg (by simpa using hkey)] at hf'
      exact List.mem_append_left _ (h.first_mem key' f' hf')
  sound m n' hmem := by
    obtain ⟨key', hm, hn⟩ := h.sound m n' hmem
    exact ⟨key', List.mem_append_left _ hm, List.mem_append_left _ hn⟩

/-- One more entry is joined to the first one with its key. -/
private theorem noteKey (h : Joined done first edges) (entry : (String × String) × Nat) :
    Joined (done ++ [entry]) (noteKey (first, edges) entry).1 (noteKey (first, edges) entry).2 := by
  obtain ⟨key, n⟩ := entry
  simp only [Linkage.noteKey]
  cases hfirst : first[key]? with
  | some f => exact h.later hfirst
  | none => exact h.new hfirst

/-- The entries are joined one after the other. -/
private theorem foldl (keyed : List ((String × String) × Nat)) :
    Joined keyed (keyed.foldl Linkage.noteKey ({}, [])).1
      (keyed.foldl Linkage.noteKey ({}, [])).2 := by
  induction keyed using List.reverseRecOn with
  | nil => exact ⟨by simp, by simp, by simp⟩
  | append_singleton done entry ih =>
    rw [List.foldl_append, List.foldl_cons, List.foldl_nil]
    exact ih.noteKey entry

/-- The edges of keyed entries join those with one key. -/
private theorem edgesByKey (keyed : List ((String × String) × Nat)) :
    ∃ first, Joined keyed first (edgesByKey keyed) := by
  obtain ⟨hreached, hfirst, hsound⟩ := Joined.foldl keyed
  exact ⟨_, by simpa only [Linkage.edgesByKey, List.mem_reverse] using hreached, hfirst,
    by simpa only [Linkage.edgesByKey, List.mem_reverse] using hsound⟩

end Joined

/-- The ends of an edge by key have one key. -/
theorem exists_key_of_mem_edgesByKey {keyed : List ((String × String) × Nat)} {m n : Nat}
    (h : (m, n) ∈ edgesByKey keyed) : ∃ key, (key, m) ∈ keyed ∧ (key, n) ∈ keyed := by
  obtain ⟨first, hjoined⟩ := Joined.edgesByKey keyed
  exact hjoined.sound m n h

/-- Members with one key are connected, through the first with that key. -/
theorem connected_of_mem_keyed {keyed : List ((String × String) × Nat)} {key : String × String}
    {m n : Nat} (hm : (key, m) ∈ keyed) (hn : (key, n) ∈ keyed) :
    EqvGen (fun x y => (x, y) ∈ edgesByKey keyed) m n := by
  obtain ⟨first, hjoined⟩ := Joined.edgesByKey keyed
  have hfrom : ∀ f n, (f = n ∨ (f, n) ∈ edgesByKey keyed) →
      EqvGen (fun x y => (x, y) ∈ edgesByKey keyed) f n := by
    rintro f n (rfl | hedge)
    · exact .refl f
    · exact .rel f n hedge
  obtain ⟨f, hf, hfm⟩ := hjoined.reached key m hm
  obtain ⟨f', hf', hfn⟩ := hjoined.reached key n hn
  -- Both were joined with the first under the key, which is one.
  obtain rfl : f = f' := Option.some.inj (hf.symm.trans hf')
  exact .trans _ f _ (.symm _ _ (hfrom f m hfm)) (hfrom f n hfn)

/-! ### Joined pairs are edges, and connect the ends of every edge -/

/-- The keyed members are those that take part, by name and type. -/
theorem mem_keyed {members : List MemberPlace} {key : String × String} {n : Nat} :
    (key, n) ∈ keyed g options members ↔ ∃ id ∈ members, takesPart options (g.memberAt id) ∧
      key = ((g.memberAt id).name, (g.memberAt id).desc) ∧ n = g.number id := by
  simp only [keyed, List.mem_filterMap]
  refine exists_congr fun id => and_congr_right fun _ => ?_
  by_cases htakes : takesPart options (g.memberAt id) <;> simp [htakes, eq_comm]

/-- Pairs from a list of members are pairs of members with one name and descriptor. -/
theorem exists_sameKey_of_mem_edgesByKey {members : List MemberPlace} {m n : Nat}
    (h : (m, n) ∈ edgesByKey (keyed g options members)) :
    ∃ a ∈ members, ∃ b ∈ members, m = g.number a ∧ n = g.number b ∧
      takesPart options (g.memberAt a) ∧ takesPart options (g.memberAt b) ∧ SameKey g a b := by
  obtain ⟨key, hm, hn⟩ := exists_key_of_mem_edgesByKey h
  obtain ⟨a, ha, hta, hkey, hnum⟩ := mem_keyed.1 hm
  obtain ⟨b, hb, htb, hkey', hnum'⟩ := mem_keyed.1 hn
  obtain ⟨hname, hdesc⟩ := Prod.mk.inj (hkey.symm.trans hkey')
  exact ⟨a, ha, b, hb, hnum, hnum', hta, htb, hname, hdesc⟩

/-- Members with one key are connected by the edges of that key. -/
theorem connected_of_sameKey {members : List MemberPlace} (ha : a ∈ members) (hb : b ∈ members)
    (hta : takesPart options (g.memberAt a)) (htb : takesPart options (g.memberAt b))
    (hkey : SameKey g a b) :
    EqvGen (fun x y => (x, y) ∈ edgesByKey (keyed g options members))
      (g.number a) (g.number b) := by
  refine connected_of_mem_keyed (mem_keyed.2 ⟨a, ha, hta, rfl, rfl⟩)
    (mem_keyed.2 ⟨b, hb, htb, ?_, rfl⟩)
  rw [hkey.name_eq, hkey.desc_eq]

/-- The members seen from a class are its own and those of its supertypes. -/
theorem mem_seenFrom {c : ClassPlace} {id : MemberPlace} :
    id ∈ (g.selfAndAncestors c).flatMap g.membersOf ↔
      id.owner ∈ g.selfAndAncestors c ∧ g.Declares id := by
  simp only [List.mem_flatMap, Graph.mem_membersOf]
  constructor
  · rintro ⟨owner, howner, rfl, hid⟩
    exact ⟨howner, hid⟩
  · rintro ⟨howner, hid⟩
    exact ⟨id.owner, howner, rfl, hid⟩

/-- The bridges are the members that take part and are marked as such. -/
theorem mem_bridges {id : MemberPlace} :
    id ∈ bridges g options ↔ Taking g options id ∧ (g.memberAt id).isBridge := by
  simp only [bridges, List.mem_filter, Graph.mem_allMembers, Bool.and_eq_true]
  exact ⟨fun ⟨hid, hbridge, htakes⟩ => ⟨⟨hid, htakes⟩, hbridge⟩,
    fun ⟨⟨hid, htakes⟩, hbridge⟩ => ⟨hid, hbridge, htakes⟩⟩

/-- A bridge follows its target exactly where the policy says so. -/
theorem joinsTarget_iff : joinsTarget g options a b ↔ Follows g options a b := by
  cases hpolicy : options.propagateBridges with
  | disabled =>
    simp only [joinsTarget, hpolicy, Bool.false_eq_true, false_iff]
    rintro (⟨h⟩ | ⟨h⟩) <;> simp [hpolicy] at h
  | enabled =>
    simp only [joinsTarget, hpolicy, true_iff]
    exact .always hpolicy
  | compatible =>
    simp only [joinsTarget, hpolicy, isOverride, Bool.and_eq_true, List.any_eq_true,
      ClassShape.isSome_memberIndex?]
    constructor
    · rintro ⟨herased, hoverride⟩
      exact .erased hpolicy herased hoverride
    · rintro (⟨h⟩ | ⟨-, herased, hoverride⟩)
      · simp [hpolicy] at h
      · exact ⟨herased, hoverride⟩

/-- A pair of a bridge and its target is an edge. -/
theorem edge_of_targetEdge? {m n : Nat} (ha : Taking g options a)
    (hbridge : (g.memberAt a).isBridge) (h : targetEdge? g options a = some (m, n)) :
    ∃ b, m = g.number a ∧ n = g.number b ∧ Edge g options a b := by
  simp only [targetEdge?, Option.bind_eq_bind, Option.bind_eq_some_iff,
    Option.ite_none_right_eq_some, Option.some.injEq, Prod.mk.injEq] at h
  obtain ⟨key, hkey, b, hfound, ⟨-, htakes, hjoins⟩, hm, hn⟩ := h
  have hmethod : (g.memberAt a).isMethod := (Bool.and_eq_true _ _ ▸ hbridge).1
  rw [MemberShape.target?, if_pos hmethod] at hkey
  exact ⟨b, hm.symm, hn.symm, .target ha ⟨Graph.declares_of_lookUpMember hfound, htakes⟩ hbridge
    hkey hfound (joinsTarget_iff.1 hjoins)⟩

/-- A bridge is joined with its target, or is its own target. -/
theorem targetEdge?_eq {key : MemberKey} (hb : Taking g options b)
    (hbridge : (g.memberAt a).isBridge) (hkey : (g.memberAt a).forwardsTo = some key)
    (hfound : g.lookUpMember .method key = some b) (hfollows : Follows g options a b)
    (hne : b ≠ a) : targetEdge? g options a = some (g.number a, g.number b) := by
  have hmethod : (g.memberAt a).isMethod := (Bool.and_eq_true _ _ ▸ hbridge).1
  simp only [targetEdge?, MemberShape.target?, if_pos hmethod, hkey, hfound, Option.bind_eq_bind,
    Option.bind_some]
  exact if_pos ⟨hne, hb.takesPart, joinsTarget_iff.2 hfollows⟩

/-- Every joined pair is an edge. -/
theorem edge_of_mem_edges {m n : Nat} (h : (m, n) ∈ edges g options) :
    ∃ a b, m = g.number a ∧ n = g.number b ∧ Edge g options a b := by
  have hoftarget : (m, n) ∈ (bridges g options).filterMap (targetEdge? g options) →
      ∃ a b, m = g.number a ∧ n = g.number b ∧ Edge g options a b := by
    intro htarget
    obtain ⟨a, ha, hedge⟩ := List.mem_filterMap.1 htarget
    obtain ⟨htaking, hbridge⟩ := mem_bridges.1 ha
    obtain ⟨b, hm, hn, hedge⟩ := edge_of_targetEdge? htaking hbridge hedge
    exact ⟨a, b, hm, hn, hedge⟩
  -- An edge of overriding, or one of bridges, which the policy may leave out.
  rcases List.mem_append.1 h with hoverride | hbridge
  · obtain ⟨c, hc, hmem⟩ := List.mem_flatMap.1 hoverride
    obtain ⟨a, ha, b, hb, hm, hn, hta, htb, hkey⟩ := exists_sameKey_of_mem_edgesByKey hmem
    obtain ⟨howner, hda⟩ := mem_seenFrom.1 ha
    obtain ⟨howner', hdb⟩ := mem_seenFrom.1 hb
    exact ⟨a, b, hm, hn,
      .override (List.mem_range.1 hc) ⟨hda, hta⟩ ⟨hdb, htb⟩ howner howner' hkey⟩
  · cases hpolicy : options.propagateBridges with
    | disabled => simp [bridgeEdges, hpolicy] at hbridge
    | compatible =>
      simp only [bridgeEdges, hpolicy] at hbridge
      exact hoftarget hbridge
    | enabled =>
      simp only [bridgeEdges, hpolicy] at hbridge
      rcases List.mem_append.1 hbridge with hmem | htarget
      · obtain ⟨a, ha, b, hb, hm, hn, -, -, hkey⟩ := exists_sameKey_of_mem_edgesByKey hmem
        obtain ⟨hta, hba⟩ := mem_bridges.1 ha
        obtain ⟨htb, hbb⟩ := mem_bridges.1 hb
        exact ⟨a, b, hm, hn, .bridges hpolicy hta htb hba hbb hkey⟩
      · exact hoftarget htarget

/-- The ends of every edge are connected by joined pairs. -/
theorem connected_of_edge (h : Edge g options a b) :
    EqvGen (fun m n => (m, n) ∈ edges g options) (g.number a) (g.number b) := by
  cases h with
  | @override c hc left right hleft hright hkey =>
    refine (connected_of_sameKey (mem_seenFrom.2 ⟨hleft, left.declared⟩)
      (mem_seenFrom.2 ⟨hright, right.declared⟩) left.takesPart right.takesPart hkey).mono
      fun m n hmem => ?_
    exact List.mem_append_left _ (List.mem_flatMap.2 ⟨c, List.mem_range.2 hc, hmem⟩)
  | bridges hpolicy left right hleft hright hkey =>
    refine (connected_of_sameKey (mem_bridges.2 ⟨left, hleft⟩) (mem_bridges.2 ⟨right, hright⟩)
      left.takesPart right.takesPart hkey).mono fun m n hmem => ?_
    refine List.mem_append_right _ ?_
    simp only [bridgeEdges, hpolicy]
    exact List.mem_append_left _ hmem
  | target left right hbridge hkey hfound hfollows =>
    -- No pair is joined for a bridge that forwards to itself, and none is needed.
    by_cases hne : b = a
    · exact hne ▸ .refl _
    · refine .rel _ _ (List.mem_append_right _ ?_)
      have hmem : (g.number a, g.number b) ∈
          (Linkage.bridges g options).filterMap (targetEdge? g options) :=
        List.mem_filterMap.2 ⟨a, mem_bridges.2 ⟨left, hbridge⟩,
          targetEdge?_eq right hbridge hkey hfound hfollows hne⟩
      -- Under either policy the pairs of targets are among those joined.
      cases hfollows with
      | always hpolicy => simp only [bridgeEdges, hpolicy]; exact List.mem_append_right _ hmem
      | erased hpolicy => simp only [bridgeEdges, hpolicy]; exact hmem

/-! ### Chains of edges -/

/-- What joined pairs connect is one number, or two members that edges connect. -/
theorem eq_or_connected (hg : g.WellNumbered) {m n : Nat}
    (h : EqvGen (fun m n => (m, n) ∈ edges g options) m n) :
    m = n ∨ ∃ a b, g.Declares a ∧ g.Declares b ∧ m = g.number a ∧ n = g.number b ∧
      EqvGen (Edge g options) a b := by
  induction h with
  | rel m n hmem =>
    obtain ⟨a, b, hm, hn, hedge⟩ := edge_of_mem_edges hmem
    exact .inr ⟨a, b, hedge.declared_left, hedge.declared_right, hm, hn, .rel a b hedge⟩
  | refl m => exact .inl rfl
  | symm m n _ ih =>
    rcases ih with rfl | ⟨a, b, ha, hb, hm, hn, hab⟩
    · exact .inl rfl
    · exact .inr ⟨b, a, hb, ha, hn, hm, hab.symm⟩
  | trans l m n _ _ ih ih' =>
    rcases ih with rfl | ⟨a, b, ha, hb, hl, hm, hab⟩
    · exact ih'
    rcases ih' with rfl | ⟨b', c, hb', hc, hm', hn, hbc⟩
    · exact .inr ⟨a, b, ha, hb, hl, hm, hab⟩
    -- The member in the middle is one, since its number is.
    obtain rfl := hg.number_injective hb hb' (hm.symm.trans hm')
    exact .inr ⟨a, c, ha, hc, hl, hn, hab.trans _ _ _ hbc⟩

/-- Joined pairs and edges connect the same members. -/
theorem connected_iff (hg : g.WellNumbered) (ha : g.Declares a) (hb : g.Declares b) :
    EqvGen (fun m n => (m, n) ∈ edges g options) (g.number a) (g.number b) ↔
      EqvGen (Edge g options) a b := by
  constructor
  · intro h
    -- Numbers are given to one member each, so what holds of the numbers holds of the members.
    rcases eq_or_connected hg h with heq | ⟨a', b', ha', hb', hm, hn, hab⟩
    · exact hg.number_injective ha hb heq ▸ .refl a
    · rwa [hg.number_injective ha ha' hm, hg.number_injective hb hb' hn]
  · intro h
    clear ha hb
    induction h with
    | rel a b hedge => exact connected_of_edge hedge
    | refl a => exact .refl _
    | symm a b _ ih => exact ih.symm
    | trans a b c _ _ ih ih' => exact ih.trans _ _ _ ih'

/-- The disjoint sets of members that all pairs are joined in. -/
def sets (g : Graph) (options : Options) : UnionFind :=
  (UnionFind.singletons g.memberTotal).unionAll (edges g options)

/-- Two members have one root iff a chain of edges leads from one to the other. -/
theorem root_eq_root_iff (hg : g.WellNumbered) (ha : g.Declares a) (hb : g.Declares b) :
    (sets g options).root (g.number a) = (sets g options).root (g.number b) ↔
      EqvGen (Edge g options) a b := by
  rw [← connected_iff hg ha hb]
  refine UnionFind.root_unionAll_iff (fun e he => ?_) (hg.number_lt ha) (hg.number_lt hb)
  obtain ⟨a', b', hm, hn, hedge⟩ := edge_of_mem_edges he
  rw [hm, hn]
  exact ⟨hg.number_lt hedge.declared_left, hg.number_lt hedge.declared_right⟩

end Relabel.Linkage
