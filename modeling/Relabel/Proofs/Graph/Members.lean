import Relabel.Graph.Basic
import Relabel.Proofs.Maps

/-!
# Members and their numbers

A place holds a member iff its class has that many. Members stand in the order of their classes and
of their places there, and their numbers tell them apart.

## Main results

- `Graph.mem_allMembers`: which places hold a member.
- `Graph.pairwise_allMembers`: all members in order, each once.
- `Graph.number_lt`, `Graph.number_injective`: numbers are in range and differ.
- `Graph.ofShapes_pair`: the graph of a class and its one subclass.
- `Graph.lookUpMember_eq_some`: what a reference leads to.
-/

namespace Relabel

/-- The order of classes and, in one class, of places. -/
def MemberPlace.Before (a b : MemberPlace) : Prop :=
  a.owner < b.owner ∨ a.owner = b.owner ∧ a.index < b.index

theorem MemberShape.isMethod_iff {m : MemberShape} : m.isMethod ↔ m.kind = .method := by
  simp [isMethod]

namespace ClassShape

variable {c : ClassShape} {kind : MemberKind} {name desc : String}

/-- A class finds the first of its members with a kind, name and descriptor. -/
theorem memberIndex?_eq_some {i : Nat}
    (h : c.memberIndex? kind name desc = some i) :
    ∃ m, c.members[i]? = some m ∧ m.kind = kind ∧ m.name = name ∧ m.desc = desc := by
  obtain ⟨hlt, hfound, -⟩ := Array.findIdx?_eq_some_iff_getElem.1 h
  simp only [Bool.and_eq_true, decide_eq_true_eq] at hfound
  exact ⟨c.members[i], Array.getElem?_eq_getElem hlt, hfound.1.1, hfound.1.2, hfound.2⟩

/-- A member is found where one with its kind, name and type is declared. -/
theorem isSome_memberIndex? :
    (c.memberIndex? kind name desc).isSome ↔
      ∃ m ∈ c.members, m.kind = kind ∧ m.name = name ∧ m.desc = desc := by
  rw [ClassShape.memberIndex?, Array.findIdx?_isSome, Array.any_eq_true']
  simp only [Bool.and_eq_true, decide_eq_true_eq, and_assoc]

end ClassShape

namespace Graph

variable {g : Graph} {id a b : MemberPlace}

/-! ### All members -/

/-- A place that holds a member. -/
def Declares (g : Graph) (id : MemberPlace) : Prop :=
  id.index < (g.classAt id.owner).members.size

/-- A member stands in a class of the graph: what stands for a missing class has none. -/
theorem Declares.owner_lt (h : g.Declares id) : id.owner < g.size := by
  refine Nat.lt_of_not_le fun hle => ?_
  -- Beyond the last class stands one without members.
  have hdefault : g.classAt id.owner = default := by
    simp only [classAt, Array.getD_eq_getD_getElem?, Array.getElem?_eq_none hle, Option.getD_none]
  rw [Declares, hdefault] at h
  exact Nat.not_lt_zero _ h

/-- The members of a class are those that it declares. -/
theorem mem_membersOf {c : ClassPlace} : id ∈ g.membersOf c ↔ id.owner = c ∧ g.Declares id := by
  simp only [membersOf, List.mem_map, List.mem_range]
  constructor
  · rintro ⟨i, hi, rfl⟩
    exact ⟨rfl, hi⟩
  · rintro ⟨rfl, hi⟩
    exact ⟨id.index, hi, rfl⟩

/-- All members are those that are declared. -/
theorem mem_allMembers : id ∈ g.allMembers ↔ g.Declares id := by
  simp only [allMembers, places, List.mem_flatMap, List.mem_range, mem_membersOf]
  constructor
  · rintro ⟨c, -, -, hid⟩
    exact hid
  · intro hid
    exact ⟨id.owner, hid.owner_lt, rfl, hid⟩

/-- All members stand in order, each once. -/
theorem pairwise_allMembers (g : Graph) : g.allMembers.Pairwise MemberPlace.Before := by
  refine List.pairwise_flatMap.2 ⟨fun c _ => ?_, ?_⟩
  · rw [membersOf, List.pairwise_map]
    exact List.pairwise_lt_range.imp fun hlt => .inr ⟨rfl, hlt⟩
  · refine List.pairwise_lt_range.imp fun {c d} hlt a ha b hb => ?_
    obtain ⟨rfl, -⟩ := mem_membersOf.1 ha
    obtain ⟨rfl, -⟩ := mem_membersOf.1 hb
    exact .inl hlt

/-! ### Numbers -/

/-- The number of members of some classes. -/
def countMembers (classes : List ClassShape) : Nat :=
  classes.foldl (fun total c => total + c.members.size) 0

theorem countMembers_concat (classes : List ClassShape) (c : ClassShape) :
    countMembers (classes ++ [c]) = countMembers classes + c.members.size := by
  simp only [countMembers, List.foldl_append, List.foldl_cons, List.foldl_nil]

/-- The number of members of the first `n` classes. -/
def membersBefore (classes : Array ClassShape) (n : Nat) : Nat :=
  countMembers (classes.toList.take n)

/-- The members before a class are those before the last one and its own. -/
theorem membersBefore_succ {classes : Array ClassShape} {n : Nat} (h : n < classes.size) :
    membersBefore classes (n + 1) = membersBefore classes n + classes[n].members.size := by
  have hlt : n < classes.toList.length := h
  rw [membersBefore, List.take_add_one, List.getElem?_eq_getElem hlt, Option.toList_some,
    countMembers_concat, Array.getElem_toList, membersBefore]

/-- The numbers only grow from class to class. -/
theorem membersBefore_mono {classes : Array ClassShape} {m n : Nat} (h : m ≤ n)
    (hn : n ≤ classes.size) : membersBefore classes m ≤ membersBefore classes n := by
  induction n with
  | zero => exact Nat.le_of_eq (by rw [Nat.le_zero.1 h])
  | succ n ih =>
    rcases Nat.lt_or_eq_of_le h with hlt | rfl
    · have := ih (Nat.le_of_lt_succ hlt) (Nat.le_of_succ_le hn)
      rw [membersBefore_succ hn]
      omega
    · exact Nat.le_refl _

/-- A row of sums of the numbers of members. -/
private def IsSums (classes : List ClassShape) (offsets : Array Nat) : Prop :=
  offsets.size = classes.length + 1 ∧ ∀ i, i ≤ classes.length →
    offsets[i]? = some (countMembers (classes.take i))

/-- One more class adds one more sum. -/
private theorem isSums_push {classes : List ClassShape} {offsets : Array Nat}
    (h : IsSums classes offsets) (c : ClassShape) :
    IsSums (classes ++ [c]) (offsets.push (offsets.back?.getD 0 + c.members.size)) := by
  obtain ⟨hsize, hsums⟩ := h
  -- The last sum is that of all classes so far.
  have hback : offsets.back? = some (countMembers classes) := by
    rw [Array.back?_eq_getElem?, hsize, Nat.add_sub_cancel, hsums _ (Nat.le_refl _),
      List.take_length]
  refine ⟨by simp [hsize], fun i hi => ?_⟩
  rw [List.length_append, List.length_singleton] at hi
  rw [Array.getElem?_push, hsize]
  by_cases hlast : i = classes.length + 1
  · rw [if_pos hlast, hlast, hback, List.take_of_length_le (by simp), countMembers_concat]
    rfl
  · rw [if_neg hlast, hsums i (by omega), List.take_append_of_le_length (by omega)]

/-- The sums of further classes follow those that are there. -/
private theorem isSums_foldl {done : List ClassShape} {offsets : Array Nat}
    (h : IsSums done offsets) (classes : List ClassShape) :
    IsSums (done ++ classes)
      (classes.foldl (fun offsets c => offsets.push (offsets.back?.getD 0 + c.members.size))
        offsets) := by
  induction classes generalizing done offsets with
  | nil => simpa using h
  | cons c rest ih => simpa using ih (isSums_push h c)

/-- The offset of a class is the number of members before it. -/
theorem getD_collectOffsets (classes : Array ClassShape) {i : Nat} (hi : i ≤ classes.size) :
    (collectOffsets classes).getD i 0 = membersBefore classes i := by
  have hempty : IsSums [] #[0] := by
    refine ⟨rfl, fun i hi => ?_⟩
    rw [Nat.le_zero.1 hi]
    rfl
  obtain ⟨-, hsums⟩ := isSums_foldl hempty classes.toList
  rw [List.nil_append, Array.foldl_toList] at hsums
  rw [Array.getD_eq_getD_getElem?, collectOffsets, hsums i hi]
  rfl

/-- In the graph of some classes the numbers are those of the sums. -/
def WellNumbered (g : Graph) : Prop :=
  g.offsets = collectOffsets g.classes

/-- A graph of shapes has the offsets of its classes. -/
theorem wellNumbered_ofShapes (shapes : List ClassShape) : (ofShapes shapes).WellNumbered := rfl

namespace WellNumbered

theorem number_eq (hg : g.WellNumbered) (h : g.Declares id) :
    g.number id = membersBefore g.classes id.owner + id.index := by
  rw [number, hg, getD_collectOffsets _ (Nat.le_of_lt h.owner_lt)]

/-- The members of a class are numbered below those of the next. -/
theorem number_lt_membersBefore (hg : g.WellNumbered) (h : g.Declares id) :
    g.number id < membersBefore g.classes (id.owner + 1) := by
  have hlt : id.owner < g.classes.size := h.owner_lt
  have hclass : g.classAt id.owner = g.classes[id.owner] := by
    simp [classAt, Array.getD_eq_getD_getElem?, hlt]
  rw [hg.number_eq h, membersBefore_succ hlt, ← hclass]
  exact Nat.add_lt_add_left h _

/-- Every number is below that of all members. -/
theorem number_lt (hg : g.WellNumbered) (h : g.Declares id) : g.number id < g.memberTotal := by
  have htotal : g.memberTotal = membersBefore g.classes g.classes.size := by
    rw [memberTotal, hg]
    exact getD_collectOffsets _ (Nat.le_refl _)
  rw [htotal]
  exact Nat.lt_of_lt_of_le (hg.number_lt_membersBefore h)
    (membersBefore_mono h.owner_lt (Nat.le_refl _))

/-- Numbers follow the order of members. -/
theorem number_lt_of_before (hg : g.WellNumbered) (ha : g.Declares a) (hb : g.Declares b)
    (h : a.Before b) : g.number a < g.number b := by
  rcases h with hlt | ⟨heq, hlt⟩
  -- Whole classes lie between members of different classes.
  · have hnext := hg.number_lt_membersBefore ha
    have hmono : membersBefore g.classes (a.owner + 1) ≤ membersBefore g.classes b.owner :=
      membersBefore_mono hlt (Nat.le_of_lt hb.owner_lt)
    rw [hg.number_eq hb]
    omega
  · rw [hg.number_eq ha, hg.number_eq hb, heq]
    omega

/-- Different members have different numbers. -/
theorem number_injective (hg : g.WellNumbered) (ha : g.Declares a) (hb : g.Declares b)
    (h : g.number a = g.number b) : a = b := by
  have hab := hg.number_lt_of_before ha hb
  have hba := hg.number_lt_of_before hb ha
  -- Otherwise one of the two comes before the other, with a smaller number.
  have howner : a.owner = b.owner := by
    rcases Nat.lt_trichotomy a.owner b.owner with hlt | heq | hlt
    · exact absurd h (Nat.ne_of_lt (hab (.inl hlt)))
    · exact heq
    · exact absurd h.symm (Nat.ne_of_lt (hba (.inl hlt)))
  have hindex : a.index = b.index := by
    rw [hg.number_eq ha, hg.number_eq hb, howner] at h
    omega
  obtain ⟨ownerA, indexA⟩ := a
  obtain ⟨ownerB, indexB⟩ := b
  simp_all

end WellNumbered

/-! ### Classes by name -/

/-- The classes of a graph are those it was made of. -/
theorem classAt_mem {shapes : List ClassShape} {c : ClassPlace} (hc : c < (ofShapes shapes).size) :
    (ofShapes shapes).classAt c ∈ shapes := by
  have hclass : (ofShapes shapes).classAt c = (ofShapes shapes).classes[c] := by
    simp [classAt, Array.getD_eq_getD_getElem?, Array.getElem?_eq_getElem hc]
  have hmem : (ofShapes shapes).classes[c] ∈ (ofShapes shapes).classes := Array.getElem_mem hc
  rw [hclass]
  exact List.mem_mergeSort.1 (List.mem_toArray.1 hmem)

/-- Every shape has its place in the graph. -/
theorem exists_classAt {shapes : List ClassShape} {shape : ClassShape} (h : shape ∈ shapes) :
    ∃ c, c < (ofShapes shapes).size ∧ (ofShapes shapes).classAt c = shape := by
  have hmem : shape ∈ (ofShapes shapes).classes.toList := List.mem_mergeSort.2 h
  obtain ⟨c, hc, rfl⟩ := List.getElem_of_mem hmem
  refine ⟨c, hc, ?_⟩
  rw [Array.length_toList] at hc
  simp [classAt, Array.getD_eq_getD_getElem?, hc]

/-- Where names differ, every class is found by its own. -/
theorem place?_name {shapes : List ClassShape} (hnames : shapes.Pairwise fun a b => a.name ≠ b.name)
    {c : ClassPlace} (hc : c < (ofShapes shapes).size) :
    (ofShapes shapes).place? ((ofShapes shapes).classAt c).name = some c := by
  have hclass : (ofShapes shapes).classes.toList[c]? = some ((ofShapes shapes).classAt c) := by
    simp [classAt, Array.getD_eq_getD_getElem?, Array.getElem?_eq_getElem hc]
  -- Sorting does not touch which names there are.
  have hperm : (ofShapes shapes).classes.toList.Perm shapes := List.mergeSort_perm _ _
  have hsorted : (ofShapes shapes).classes.toList.Pairwise fun a b => a.name ≠ b.name :=
    (hperm.pairwise_iff fun h => h.symm).2 hnames
  refine Std.HashMap.getElem?_ofList_of_mem (beq_self_eq_true _) ?_ ?_
  · refine List.pairwise_map.2 ?_
    rw [← List.zipIdx_map_fst 0 (ofShapes shapes).classes.toList, List.pairwise_map] at hsorted
    exact hsorted.imp fun hne => beq_false_of_ne hne
  · exact List.mem_map.2 ⟨(_, c), List.mem_zipIdx_iff_getElem?.2 hclass, rfl⟩

/-- A name leads to a class that has it. -/
def Indexed (g : Graph) : Prop :=
  ∀ name c, g.place? name = some c → c < g.size ∧ (g.classAt c).name = name

/-- A graph of shapes finds each class under its own name. -/
theorem indexed_ofShapes (shapes : List ClassShape) : (ofShapes shapes).Indexed := by
  intro name c h
  obtain ⟨⟨shape, i⟩, hshape, heq⟩ := List.mem_map.1 (mem_of_getElem?_ofList h)
  obtain ⟨hname, hplace⟩ := Prod.mk.inj heq
  subst hplace
  have hget : (ofShapes shapes).classes[i]? = some shape := by
    rw [← Array.getElem?_toList]
    exact List.mem_zipIdx_iff_getElem?.1 hshape
  refine ⟨(Array.getElem?_eq_some_iff.1 hget).1, ?_⟩
  rw [← hname, classAt, Array.getD_eq_getD_getElem?, hget, Option.getD_some]

/-- The graph of a class and its one subclass. -/
theorem ofShapes_pair {a b : ClassShape} (hname : a.name < b.name) (ha : a.supertypes = [])
    (hb : b.superName = some a.name) (hb' : b.interfaces = []) :
    ofShapes [a, b] =
      { classes := #[a, b]
        index := indexOf #[a, b]
        ancestors := #[#[], #[0]]
        subclasses := collectSubclasses #[a, b] (indexOf #[a, b])
        offsets := collectOffsets #[a, b] } := by
  -- The classes are in order already, and differ in name.
  have hsorted : [a, b].mergeSort (fun a b => a.name ≤ b.name) = [a, b] :=
    List.mergeSort_of_pairwise <|
      List.pairwise_pair.2 (decide_eq_true (String.not_lt.1 (String.lt_asymm hname)))
  have hne : a.name ≠ b.name := fun h => String.lt_irrefl _ (h ▸ hname)
  have hplace : (indexOf #[a, b])[a.name]? = some 0 := by
    refine Std.HashMap.getElem?_ofList_of_mem (beq_self_eq_true _) ?_ (List.mem_cons_self ..)
    simpa using hne
  obtain ⟨hnone, hnil⟩ : a.superName = none ∧ a.interfaces = [] := by
    simpa [ClassShape.supertypes] using ha
  -- The first class has no supertypes, and the second has the first alone.
  have hancestors : (Array.range 2).map (ancestorsFrom #[a, b] (indexOf #[a, b])) =
      #[#[], #[0]] := by
    have hrange : Array.range 2 = #[0, 1] := rfl
    simp [hrange, ancestorsFrom, superChain, closeUnder, addNew, superOf?, parents, hnone, hnil, hb,
      hb', hplace]
  rw [ofShapes, hsorted]
  exact congrArg (Graph.mk #[a, b] (indexOf #[a, b]) · _ _) hancestors

/-! ### Looking members up -/

/-- A reference leads to a member of its owner or of a supertype, with its kind, name and
descriptor. -/
theorem lookUpMember_eq_some {kind : MemberKind} {key : MemberKey}
    (h : g.lookUpMember kind key = some id) :
    ∃ owner, g.place? key.owner = some owner ∧ id.owner ∈ g.selfAndAncestors owner ∧
      (g.classAt id.owner).memberIndex? kind key.name key.desc = some id.index := by
  simp only [lookUpMember, Option.bind_eq_bind, Option.bind_eq_some_iff] at h
  obtain ⟨owner, howner, hfound⟩ := h
  obtain ⟨c, hc, hmap⟩ := List.exists_of_findSome?_eq_some hfound
  obtain ⟨i, hi, rfl⟩ := Option.map_eq_some_iff.1 hmap
  exact ⟨owner, howner, hc, hi⟩

/-- A member that its class finds is what a reference to that class leads to. -/
theorem lookUpMember_of_place? {kind : MemberKind} {key : MemberKey}
    (hplace : g.place? key.owner = some id.owner)
    (hindex : (g.classAt id.owner).memberIndex? kind key.name key.desc = some id.index) :
    g.lookUpMember kind key = some id := by
  simp [lookUpMember, hplace, selfAndAncestors, hindex]

/-- The place that a reference leads to holds a member. -/
theorem declares_of_lookUpMember {kind : MemberKind} {key : MemberKey}
    (h : g.lookUpMember kind key = some id) : g.Declares id := by
  obtain ⟨-, -, -, hindex⟩ := lookUpMember_eq_some h
  obtain ⟨m, hm, -⟩ := ClassShape.memberIndex?_eq_some hindex
  exact (Array.getElem?_eq_some_iff.1 hm).1

end Graph

end Relabel
