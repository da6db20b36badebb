import Mathlib.Data.List.Chain
import Mathlib.Data.List.Nodup
import Mathlib.Data.List.Perm.Subperm
import Mathlib.Logic.Relation
import Relabel.Proofs.Graph.Members
import Relabel.Proofs.Steps

/-!
# Ancestors

The ancestors of a class are found by two searches over one list: the first follows superclasses,
the second looks at what was found, one class after the other, and adds the supertypes of each.
Either only adds classes that are not there yet, so there are fewer than classes in the graph, and
both come to their end whatever the supertypes are: a hierarchy may be cyclic, and may name classes
that the graph does not have.

## Main results

- `Graph.place?_eq_some_iff`: where names differ, they tell classes apart.
- `Graph.endsAt_superChain`: the first search ends, at the superclasses in order.
- `Graph.endsAt_closeUnder`: the second search ends, where no supertype is missing.
- `Graph.ancestry_ofShapes`: the ancestors of a class are its strict supertypes, the superclasses
  first.
-/

namespace Relabel.Graph

open Relation (TransGen)

variable {g : Graph} {start current a b s : ClassPlace} {chain found found' : Array ClassPlace}
  {head fuel : Nat}

/-! ### Supertypes -/

/-- The second class is the superclass of the first. -/
structure Inherits (g : Graph) (a b : ClassPlace) : Prop where
  lt : b < g.size
  named : (g.classAt a).superName = some (g.classAt b).name

/-- The second class is the superclass of the first or one of its interfaces. -/
structure Extends (g : Graph) (a b : ClassPlace) : Prop where
  lt : b < g.size
  named : (g.classAt b).name ∈ (g.classAt a).supertypes

/-- A class extends those in the graph whose names it has for supertypes. -/
theorem extends_iff :
    g.Extends a b ↔ b < g.size ∧ (g.classAt b).name ∈ (g.classAt a).supertypes :=
  ⟨fun h => ⟨h.lt, h.named⟩, fun h => ⟨h.1, h.2⟩⟩

/-- A superclass is a supertype. -/
theorem Inherits.extends (h : g.Inherits a b) : g.Extends a b where
  lt := h.lt
  named := by simp [ClassShape.supertypes, h.named]

/-- A class above another is in the graph. -/
theorem lt_of_transGen (h : TransGen g.Extends a b) : b < g.size := by
  cases h with
  | single h => exact h.lt
  | tail _ h => exact h.lt

/-- Names lead to the classes that have them, and to no others. -/
def FindsByName (g : Graph) : Prop :=
  ∀ name c, g.place? name = some c ↔ c < g.size ∧ (g.classAt c).name = name

/-- Where names differ, every class is found by its own and by no other. -/
theorem findsByName_ofShapes {shapes : List ClassShape}
    (hnames : shapes.Pairwise fun a b => a.name ≠ b.name) : (ofShapes shapes).FindsByName := by
  intro name c
  constructor
  · exact indexed_ofShapes shapes name c
  · rintro ⟨hc, rfl⟩
    exact place?_name hnames hc

/-- The parents of a class are found by the names of its interfaces and its superclass. -/
theorem parents_eq (g : Graph) (a : ClassPlace) :
    parents g.classes g.index a =
      ((g.classAt a).interfaces ++ (g.classAt a).superName.toList).filterMap g.place? := by
  simp only [parents, classAt, Array.getD_eq_getD_getElem?]
  cases g.classes[a]? <;> rfl

/-- The superclass of a class is found by its name. -/
theorem superOf?_eq (g : Graph) (a : ClassPlace) :
    superOf? g.classes g.index a = (g.classAt a).superName.bind g.place? := by
  simp only [superOf?, classAt, Array.getD_eq_getD_getElem?]
  cases g.classes[a]? <;> rfl

/-- Where the index finds classes by their names, the parents are the classes that it extends. -/
theorem mem_parents (hg : g.FindsByName) : b ∈ parents g.classes g.index a ↔ g.Extends a b := by
  -- The interfaces stand in front here and behind the superclass in the list of supertypes.
  have hsupertype : ∀ name, name ∈ (g.classAt a).interfaces ++ (g.classAt a).superName.toList ↔
      name ∈ (g.classAt a).supertypes := by
    intro name
    simp only [ClassShape.supertypes, List.mem_append, or_comm]
  rw [parents_eq, List.mem_filterMap]
  constructor
  · rintro ⟨name, hname, hplace⟩
    obtain ⟨hlt, rfl⟩ := (hg name b).1 hplace
    exact ⟨hlt, (hsupertype _).1 hname⟩
  · rintro ⟨hlt, hname⟩
    exact ⟨_, (hsupertype _).2 hname, (hg _ b).2 ⟨hlt, rfl⟩⟩

/-- So is the superclass, if it is in the graph. -/
theorem superOf?_eq_some_iff (hg : g.FindsByName) :
    superOf? g.classes g.index a = some b ↔ g.Inherits a b := by
  rw [superOf?_eq, Option.bind_eq_some_iff]
  constructor
  · rintro ⟨name, hname, hplace⟩
    obtain ⟨hlt, rfl⟩ := (hg name b).1 hplace
    exact ⟨hlt, hname⟩
  · rintro ⟨hlt, hname⟩
    exact ⟨_, hname, (hg _ b).2 ⟨hlt, rfl⟩⟩

/-! ### What a search has found -/

/-- Some strict supertypes of a class, each once, and not the class itself. -/
structure Found (g : Graph) (start : ClassPlace) (found : Array ClassPlace) : Prop where
  nodup : (start :: found.toList).Nodup
  above : ∀ a ∈ found, TransGen g.Extends start a

namespace Found

theorem empty (g : Graph) (start : ClassPlace) : g.Found start #[] :=
  ⟨List.nodup_singleton start, by simp⟩

/-- There are fewer of them than classes. -/
theorem size_lt (h : g.Found start found) (hstart : start < g.size) : found.size < g.size := by
  have hsubset : start :: found.toList ⊆ g.places := by
    intro a ha
    rw [places, List.mem_range]
    rcases List.mem_cons.1 ha with rfl | ha
    · exact hstart
    · exact lt_of_transGen (h.above a (Array.mem_toList_iff.1 ha))
  have hlength := (List.subperm_of_subset h.nodup hsubset).length_le
  rw [List.length_cons, Array.length_toList, places, List.length_range] at hlength
  exact hlength

/-- A class above that is not there yet may be added. -/
theorem push (h : g.Found start found) (hne : a ≠ start) (hnew : a ∉ found)
    (habove : TransGen g.Extends start a) : g.Found start (found.push a) where
  nodup := by
    have hnodup := List.nodup_cons.1 h.nodup
    have ha : a ∉ found.toList := fun hmem => hnew (Array.mem_toList_iff.1 hmem)
    rw [Array.toList_push, List.nodup_cons, List.mem_append, List.mem_singleton, not_or]
    exact ⟨⟨hnodup.1, Ne.symm hne⟩, List.concat_eq_append ▸ hnodup.2.concat ha⟩
  above b hb := by
    rcases Array.mem_push.1 hb with hb | rfl
    · exact h.above b hb
    · exact habove

/-- It may be added in any case, since nothing is added twice. -/
theorem addNew (h : g.Found start found) (habove : TransGen g.Extends start a) :
    g.Found start (addNew start found a) := by
  unfold Graph.addNew
  split
  · exact h
  · next hnew =>
    rw [Bool.or_eq_true, decide_eq_true_eq, Array.contains_iff_mem, not_or] at hnew
    exact h.push hnew.1 hnew.2 habove

/-- So may all parents of a class. -/
theorem foldl_addNew (h : g.Found start found) {parents : List ClassPlace}
    (habove : ∀ p ∈ parents, TransGen g.Extends start p) :
    g.Found start (parents.foldl (Graph.addNew start) found) := by
  induction parents generalizing found with
  | nil => exact h
  | cons p rest ih =>
    rw [List.forall_mem_cons] at habove
    exact ih (h.addNew habove.1) habove.2

end Found

/-- What was found stays in front. -/
theorem prefix_addNew (start : ClassPlace) (found : Array ClassPlace) (a : ClassPlace) :
    found.toList <+: (addNew start found a).toList := by
  unfold addNew
  split
  · exact List.prefix_rfl
  · rw [Array.toList_push]
    exact List.prefix_append _ _

/-- A class that is added is there, be it the class itself. -/
theorem mem_addNew_self (start : ClassPlace) (found : Array ClassPlace) (a : ClassPlace) :
    a ∈ start :: (addNew start found a).toList := by
  unfold addNew
  split
  · next hold =>
    rw [Bool.or_eq_true, decide_eq_true_eq, Array.contains_iff_mem] at hold
    exact List.mem_cons.2 (hold.imp_right Array.mem_toList_iff.2)
  · simp

/-- Adding classes leaves those that are there in their places. -/
theorem prefix_foldl_addNew (start : ClassPlace) (found : Array ClassPlace)
    (parents : List ClassPlace) :
    found.toList <+: (parents.foldl (addNew start) found).toList := by
  induction parents generalizing found with
  | nil => exact List.prefix_rfl
  | cons p rest ih => exact (prefix_addNew start found p).trans (ih _)

/-- So are all that are added. -/
theorem mem_foldl_addNew (start : ClassPlace) (found : Array ClassPlace)
    {parents : List ClassPlace} (ha : a ∈ parents) :
    a ∈ start :: (parents.foldl (addNew start) found).toList := by
  induction parents generalizing found with
  | nil => cases ha
  | cons p rest ih =>
    rcases List.mem_cons.1 ha with rfl | ha
    · have hprefix := prefix_foldl_addNew start (addNew start found a) rest
      exact List.cons_subset_cons start hprefix.subset (mem_addNew_self start found a)
    · exact ih _ ha

/-! ### Up the superclasses -/

/-- One more superclass, where it is a new one. -/
def climb (g : Graph) (start : ClassPlace) :
    ClassPlace × Array ClassPlace → Option (ClassPlace × Array ClassPlace)
  | (current, chain) =>
    match superOf? g.classes g.index current with
    | some s => if s = start || chain.contains s then none else some (s, chain.push s)
    | none => none

/-- The first search goes up one class, or stops. -/
theorem superChain_succ (g : Graph) (start : ClassPlace) (fuel : Nat) (current : ClassPlace)
    (chain : Array ClassPlace) :
    superChain (superOf? g.classes g.index) start (fuel + 1) current chain =
      match g.climb start (current, chain) with
      | none => chain
      | some (s, chain') => superChain (superOf? g.classes g.index) start fuel s chain' := by
  rw [superChain, climb]
  cases superOf? g.classes g.index current with
  | none => rfl
  | some s => by_cases hold : (s = start || chain.contains s) = true <;> simp only [hold, if_true,
      if_false, Bool.false_eq_true]

/-- The superclasses of a class in order, as far as `current`. -/
structure Climbed (g : Graph) (start current : ClassPlace) (chain : Array ClassPlace) : Prop where
  found : g.Found start chain
  linked : (start :: chain.toList).IsChain g.Inherits
  last : (start :: chain.toList).getLast? = some current

/-- Where the first search stops, all superclasses were met: the last one has none or one that was
met before. -/
structure Lineage (g : Graph) (start : ClassPlace) (chain : List ClassPlace) : Prop where
  linked : (start :: chain).IsChain g.Inherits
  nodup : (start :: chain).Nodup
  complete : ∀ a ∈ (start :: chain).getLast?, ∀ s, g.Inherits a s → s ∈ start :: chain

/-- It stops where the superclass was met before, or there is none. -/
theorem climb_eq_none_iff (hg : g.FindsByName) :
    g.climb start (current, chain) = none ↔
      ∀ s, g.Inherits current s → s ∈ start :: chain.toList := by
  simp only [climb, ← superOf?_eq_some_iff hg, List.mem_cons, Array.mem_toList_iff]
  cases superOf? g.classes g.index current with
  | none => simp
  | some s => by_cases hs : s = start <;> simp [hs]

/-- One more superclass is one that was not met yet. -/
theorem inherits_of_climb (hg : g.FindsByName)
    (h : g.climb start (current, chain) = some (s, found)) :
    g.Inherits current s ∧ s ≠ start ∧ s ∉ chain ∧ found = chain.push s := by
  simp only [climb] at h
  split at h
  · next s' hsuper =>
    split at h
    · cases h
    · next hnew =>
      obtain ⟨rfl, rfl⟩ := Prod.mk.inj (Option.some.inj h)
      rw [Bool.or_eq_true, decide_eq_true_eq, Array.contains_iff_mem, not_or] at hnew
      exact ⟨(superOf?_eq_some_iff hg).1 hsuper, hnew.1, hnew.2, rfl⟩
  · cases h

namespace Climbed

theorem empty (g : Graph) (start : ClassPlace) : g.Climbed start start #[] where
  found := .empty g start
  linked := .singleton start
  last := rfl

/-- The last superclass that was met is the class itself or one above it. -/
theorem above (h : g.Climbed start current chain) (hs : g.Inherits current s) :
    TransGen g.Extends start s := by
  rcases List.mem_cons.1 (List.mem_of_getLast? h.last) with rfl | hmem
  · exact .single hs.extends
  · exact (h.found.above current (Array.mem_toList_iff.1 hmem)).tail hs.extends

/-- One step up keeps the superclasses in order. -/
theorem climb (hg : g.FindsByName) (h : g.Climbed start current chain)
    (hnext : g.climb start (current, chain) = some (s, found)) : g.Climbed start s found := by
  obtain ⟨hs, hne, hnew, rfl⟩ := inherits_of_climb hg hnext
  refine ⟨h.found.push hne hnew (h.above hs), ?_, ?_⟩
  · rw [Array.toList_push, ← List.cons_append, List.isChain_append]
    refine ⟨h.linked, .singleton s, fun a ha b hb => ?_⟩
    rw [h.last, Option.mem_some_iff] at ha
    rw [List.head?_cons, Option.mem_some_iff] at hb
    exact ha ▸ hb ▸ hs
  · rw [Array.toList_push, ← List.cons_append, List.getLast?_concat]

/-- Where the search stops, no superclass is left out. -/
theorem lineage (hg : g.FindsByName) (h : g.Climbed start current chain)
    (hnone : g.climb start (current, chain) = none) : g.Lineage start chain.toList where
  linked := h.linked
  nodup := h.found.nodup
  complete a ha := by
    rw [h.last, Option.mem_some_iff] at ha
    exact ha ▸ (climb_eq_none_iff hg).1 hnone

end Climbed

/-- With a step for each class the first search ends, at the superclasses in order. -/
private theorem endsAt_superChain_of_climbed (hg : g.FindsByName) (hstart : start < g.size)
    (h : g.Climbed start current chain) (hfuel : g.size ≤ chain.size + fuel) :
    ∃ last, EndsAt (g.climb start) (current, chain)
        (last, superChain (superOf? g.classes g.index) start fuel current chain) ∧
      g.Climbed start last (superChain (superOf? g.classes g.index) start fuel current chain) := by
  induction fuel generalizing current chain with
  | zero => exact absurd (h.found.size_lt hstart) (Nat.not_lt.2 hfuel)
  | succ fuel ih =>
    rw [superChain_succ]
    cases hnext : g.climb start (current, chain) with
    | none => exact ⟨current, .stop hnext, h⟩
    | some state =>
      obtain ⟨s, chain'⟩ := state
      -- One more class was met, so one step less is needed.
      have hless : g.size ≤ chain'.size + fuel := by
        obtain ⟨-, -, -, rfl⟩ := inherits_of_climb hg hnext
        rw [Array.size_push]
        omega
      obtain ⟨last, hends, hlast⟩ := ih (h.climb hg hnext) hless
      exact ⟨last, .pass hnext hends, hlast⟩

/-- The first search ends, at the superclasses in order. -/
theorem endsAt_superChain (hg : g.FindsByName) (hstart : start < g.size) :
    ∃ last chain, superChain (superOf? g.classes g.index) start g.size start #[] = chain ∧
      EndsAt (g.climb start) (start, #[]) (last, chain) ∧ g.Found start chain ∧
      g.Lineage start chain.toList := by
  obtain ⟨last, hends, hlast⟩ :=
    endsAt_superChain_of_climbed hg hstart (.empty g start) (Nat.le_of_eq (Nat.zero_add _).symm)
  exact ⟨last, _, rfl, hends, hlast.found, hlast.lineage hg hends.next_eq_none⟩

/-! ### Across all supertypes -/

/-- One more class that was found is looked at, and its supertypes are added. -/
def widen (g : Graph) (start : ClassPlace) :
    Nat × Array ClassPlace → Option (Nat × Array ClassPlace)
  | (head, found) =>
    (start :: found.toList)[head]?.map fun id =>
      (head + 1, (parents g.classes g.index id).foldl (addNew start) found)

/-- The second search looks at one more class, or stops. -/
theorem closeUnder_succ (g : Graph) (start : ClassPlace) (fuel head : Nat)
    (found : Array ClassPlace) :
    closeUnder (parents g.classes g.index) start (fuel + 1) head found =
      match g.widen start (head, found) with
      | none => found
      | some (head', found') =>
        closeUnder (parents g.classes g.index) start fuel head' found' := by
  have hlook : (if head = 0 then some start else found[head - 1]?) =
      (start :: found.toList)[head]? := by
    cases head <;> simp
  rw [closeUnder, widen, hlook]
  cases (start :: found.toList)[head]? <;> rfl

/-- A search that has looked at the first `head` classes, itself the first of them, and has not
missed a supertype of these. -/
structure Widened (g : Graph) (start : ClassPlace) (head : Nat) (classes : Array ClassPlace) :
    Prop where
  found : g.Found start classes
  head_le : head ≤ classes.size + 1
  closed : ∀ a ∈ (start :: classes.toList).take head, ∀ p, g.Extends a p →
    p ∈ start :: classes.toList

namespace Widened

theorem zero (h : g.Found start found) : g.Widened start 0 found :=
  ⟨h, Nat.zero_le _, by simp⟩

/-- One more class is looked at, and behind those found there are only new ones. -/
theorem widen (hg : g.FindsByName) (h : g.Widened start head found) {head' : Nat}
    (hnext : g.widen start (head, found) = some (head', found')) :
    head' = head + 1 ∧ found.toList <+: found'.toList ∧ g.Widened start head' found' := by
  obtain ⟨id, hid, heq⟩ := Option.map_eq_some_iff.1 hnext
  obtain ⟨rfl, rfl⟩ := Prod.mk.inj heq
  have hprefix := prefix_foldl_addNew start found (parents g.classes g.index id)
  have habove : ∀ p ∈ parents g.classes g.index id, TransGen g.Extends start p := by
    intro p hp
    have hextends := (mem_parents hg).1 hp
    rcases List.mem_cons.1 (List.mem_of_getElem? hid) with rfl | hmem
    · exact .single hextends
    · exact (h.found.above id (Array.mem_toList_iff.1 hmem)).tail hextends
  have hlt : head < (start :: found.toList).length := (List.getElem?_eq_some_iff.1 hid).1
  -- What was looked at before keeps its place, and `id` stands behind it.
  have hprefix' := (List.prefix_cons_inj start).2 hprefix
  have htake : (start :: ((parents g.classes g.index id).foldl (addNew start) found).toList).take
      (head + 1) = (start :: found.toList).take head ++ [id] := by
    obtain ⟨rest, hrest⟩ := hprefix'
    rw [← hrest, List.take_append_of_le_length hlt, List.take_add_one, hid, Option.toList_some]
  refine ⟨rfl, hprefix, h.found.foldl_addNew habove, ?_, ?_⟩
  · have hle := hprefix'.length_le
    simp only [List.length_cons, Array.length_toList] at hlt hle
    omega
  · intro a ha p hp
    rw [htake, List.mem_append, List.mem_singleton] at ha
    rcases ha with ha | rfl
    · exact hprefix'.subset (h.closed a ha p hp)
    · exact mem_foldl_addNew start found ((mem_parents hg).2 hp)

/-- Where the second search stops, it has looked at all classes it found. -/
theorem closed_of_none (h : g.Widened start head found)
    (hnone : g.widen start (head, found) = none) :
    ∀ a ∈ start :: found.toList, ∀ p, g.Extends a p → p ∈ start :: found.toList := by
  have hall : (start :: found.toList).length ≤ head :=
    List.getElem?_eq_none_iff.1 (Option.map_eq_none_iff.1 hnone)
  have hclosed := h.closed
  rwa [List.take_of_length_le hall] at hclosed

end Widened

/-- With a step for each class the second search ends, where no supertype is missing. -/
private theorem endsAt_closeUnder_of_widened (hg : g.FindsByName) (hstart : start < g.size)
    (h : g.Widened start head found) (hfuel : g.size < head + fuel) :
    ∃ last, EndsAt (g.widen start) (head, found)
        (last, closeUnder (parents g.classes g.index) start fuel head found) ∧
      g.Widened start last (closeUnder (parents g.classes g.index) start fuel head found) ∧
      found.toList <+: (closeUnder (parents g.classes g.index) start fuel head found).toList := by
  induction fuel generalizing head found with
  | zero =>
    -- More classes would have been looked at than were found.
    have hsize := h.found.size_lt hstart
    have hle := h.head_le
    omega
  | succ fuel ih =>
    rw [closeUnder_succ]
    cases hnext : g.widen start (head, found) with
    | none => exact ⟨head, .stop hnext, h, List.prefix_rfl⟩
    | some state =>
      obtain ⟨head', found'⟩ := state
      obtain ⟨rfl, hprefix, h'⟩ := h.widen hg hnext
      obtain ⟨last, hends, hlast, hprefix'⟩ := ih h' (by omega)
      exact ⟨last, .pass hnext hends, hlast, hprefix.trans hprefix'⟩

/-- The second search ends, where no supertype is missing, and keeps what it started with in
front. -/
theorem endsAt_closeUnder (hg : g.FindsByName) (hstart : start < g.size)
    (h : g.Found start chain) :
    ∃ head found, closeUnder (parents g.classes g.index) start (g.size + 1) 0 chain = found ∧
      EndsAt (g.widen start) (0, chain) (head, found) ∧ g.Found start found ∧
      chain.toList <+: found.toList ∧
      ∀ a ∈ start :: found.toList, ∀ p, g.Extends a p → p ∈ start :: found.toList := by
  obtain ⟨head, hends, hlast, hprefix⟩ :=
    endsAt_closeUnder_of_widened hg hstart (.zero h) (Nat.lt_of_lt_of_le (Nat.lt_succ_self _)
      (Nat.le_of_eq (Nat.zero_add _).symm))
  exact ⟨head, _, rfl, hends, hlast.found, hprefix, hlast.closed_of_none hends.next_eq_none⟩

/-! ### The ancestors -/

/-- The ancestors of a class: both searches end, and what they find are the strict supertypes other
than the class itself, each once, the superclasses in order before all others. -/
structure Ancestry (g : Graph) (c : ClassPlace) : Prop where
  ends : ∃ last chain head, EndsAt (g.climb c) (c, #[]) (last, chain) ∧
    EndsAt (g.widen c) (0, chain) (head, (g.ancestorsOf c).toArray)
  nodup : (g.ancestorsOf c).Nodup
  not_mem_self : c ∉ g.ancestorsOf c
  mem_iff : ∀ a, a ∈ g.ancestorsOf c ↔ a ≠ c ∧ TransGen g.Extends c a
  begins : ∃ chain, g.Lineage c chain ∧ chain <+: g.ancestorsOf c

/-- The ancestors of a class are those that both searches find. -/
theorem ancestorsOf_ofShapes {shapes : List ClassShape} {c : ClassPlace}
    (hc : c < (ofShapes shapes).size) :
    (ofShapes shapes).ancestorsOf c =
      (ancestorsFrom (ofShapes shapes).classes (ofShapes shapes).index c).toList := by
  have hget : (ofShapes shapes).ancestors[c]? =
      some (ancestorsFrom (ofShapes shapes).classes (ofShapes shapes).index c) := by
    show ((Array.range (ofShapes shapes).size).map _)[c]? = _
    rw [Array.getElem?_map, Array.getElem?_range, if_pos hc]
    rfl
  rw [ancestorsOf, Array.getD_eq_getD_getElem?, hget, Option.getD_some]

/-- A set that holds a class and with each class its supertypes holds all classes above. -/
theorem mem_of_transGen {classes : List ClassPlace} (ha : a ∈ classes)
    (hclosed : ∀ x ∈ classes, ∀ p, g.Extends x p → p ∈ classes)
    (h : TransGen g.Extends a b) : b ∈ classes := by
  induction h with
  | single h => exact hclosed a ha _ h
  | tail _ h ih => exact hclosed _ ih _ h

/-- In the graph of classes with different names, the ancestors of a class are its strict
supertypes. -/
theorem ancestry_ofShapes {shapes : List ClassShape}
    (hnames : shapes.Pairwise fun a b => a.name ≠ b.name) {c : ClassPlace}
    (hc : c < (ofShapes shapes).size) : (ofShapes shapes).Ancestry c := by
  -- Both searches come to their end, the second with what the first has found.
  have hg := findsByName_ofShapes hnames
  obtain ⟨last, chain, hchain, hclimbed, hfound, hlineage⟩ := endsAt_superChain hg hc
  obtain ⟨head, found, hclosed, hwidened, hall, hprefix, hsupertypes⟩ :=
    endsAt_closeUnder hg hc hfound
  have hancestors : (ofShapes shapes).ancestorsOf c = found.toList := by
    rw [ancestorsOf_ofShapes hc, ← hclosed, ← hchain]
    rfl
  have hself : c ∉ found.toList := (List.nodup_cons.1 hall.nodup).1
  constructor
  · exact ⟨last, chain, head, hclimbed, by rw [hancestors]; exact hwidened⟩
  · rw [hancestors]
    exact (List.nodup_cons.1 hall.nodup).2
  · rwa [hancestors]
  · intro a
    rw [hancestors]
    constructor
    · intro ha
      exact ⟨ne_of_mem_of_not_mem ha hself, hall.above a (Array.mem_toList_iff.1 ha)⟩
    -- What the second search found holds its own supertypes, so it holds all classes above.
    · rintro ⟨hne, habove⟩
      have hmem := mem_of_transGen List.mem_cons_self hsupertypes habove
      exact (List.mem_cons.1 hmem).resolve_left hne
  · rw [hancestors]
    exact ⟨chain.toList, hlineage, hprefix⟩

/-! ### A tangled hierarchy -/

/-- Two classes that are each other's superclass, with two ways to one interface and one to a class
that is not there. -/
def tangledShapes : List ClassShape :=
  [ { name := "A", access := .onlyPublic, superName := some "B", interfaces := ["I", "X"],
      origin := .input },
    { name := "B", access := .onlyPublic, superName := some "A", interfaces := ["J"],
      origin := .input },
    { name := "I", access := .onlyPublic, superName := some "X", interfaces := ["K"],
      origin := .input },
    { name := "J", access := .onlyPublic, interfaces := ["K", "J"], origin := .input },
    { name := "K", access := .onlyPublic, origin := .input } ]

theorem classes_tangled : (ofShapes tangledShapes).classes = tangledShapes.toArray :=
  congrArg List.toArray (List.mergeSort_of_pairwise (by decide))

/-- The first two classes extend each other, and a third is above them. -/
theorem extends_tangled :
    (ofShapes tangledShapes).Extends 0 1 ∧ (ofShapes tangledShapes).Extends 1 0 ∧
      (ofShapes tangledShapes).Extends 1 3 ∧ (ofShapes tangledShapes).Extends 3 4 := by
  simp only [extends_iff, size, classAt, classes_tangled]
  decide

/-- `A` is above itself, but no ancestor of itself; `K` is one, by way of `B` and `J`. -/
theorem ancestry_ofShapes_tangled :
    tangledShapes.Pairwise (fun a b => a.name ≠ b.name) ∧ 0 < (ofShapes tangledShapes).size ∧
      (ofShapes tangledShapes).Ancestry 0 ∧ TransGen (ofShapes tangledShapes).Extends 0 0 ∧
      0 ∉ (ofShapes tangledShapes).ancestorsOf 0 ∧ 4 ∈ (ofShapes tangledShapes).ancestorsOf 0 := by
  have hnames : tangledShapes.Pairwise fun a b => a.name ≠ b.name := by decide
  have hsize : 0 < (ofShapes tangledShapes).size := by
    rw [size, classes_tangled]
    decide
  have hancestry := ancestry_ofShapes hnames hsize
  obtain ⟨hAB, hBA, hBJ, hJK⟩ := extends_tangled
  -- From `A` the way to `K` leads once through the cycle with `B`.
  have hK : TransGen (ofShapes tangledShapes).Extends 0 4 :=
    ((TransGen.single hAB).tail hBJ).tail hJK
  exact ⟨hnames, hsize, hancestry, (TransGen.single hAB).tail hBA, hancestry.not_mem_self,
    (hancestry.mem_iff 4).2 ⟨by decide, hK⟩⟩

end Relabel.Graph
