import Mathlib.Data.List.Find
import Mathlib.Data.List.Induction
import Mathlib.Data.List.Pairwise
import Relabel.Proofs.Decisions.Steps
import Relabel.Proofs.Graph.Members

/-!
# What the searches for clashes find

Members and classes are gone through in order, with a table of what was met before. For members the
search goes on to the end, and finds each that repeats the key of an earlier one, with the first one
of that key. For classes it ends at the first clash.

## Main results

- `Draft.forall₂_clashesIn`: the clashes of the members of a class.
- `Draft.clashesIn_eq_nil_iff`, `Draft.mem_clashesIn`: what no clash means, and what one.
- `Draft.exists_of_classClash?`, `Draft.classClash?_eq_none_iff`: likewise for classes.
-/

namespace Relabel

/-- The members of a class stand in the order of their places. -/
theorem Graph.pairwise_membersOf (g : Graph) (c : ClassPlace) :
    (g.membersOf c).Pairwise fun a b => a.index < b.index := by
  rw [membersOf, List.pairwise_map]
  exact List.pairwise_lt_range

theorem Graph.nodup_membersOf (g : Graph) (c : ClassPlace) : (g.membersOf c).Nodup :=
  (g.pairwise_membersOf c).imp fun hlt heq => Nat.ne_of_lt hlt (congrArg MemberPlace.index heq)

namespace Draft

variable {r : Decisions}

/-! ### Clashes of members -/

/-- What members of one class must not share: their kind, and name and descriptor afterwards. -/
def targetKey (r : Decisions) (id : MemberPlace) : Bool × String × String :=
  ((r.graph.memberAt id).isMethod, r.memberAfter id)

/-- A member with the key of an earlier one. -/
def Repeats (r : Decisions) (members : List MemberPlace) (id : MemberPlace) : Prop :=
  ∃ other ∈ members, other.index < id.index ∧ targetKey r other = targetKey r id

instance (members : List MemberPlace) (id : MemberPlace) : Decidable (Repeats r members id) :=
  inferInstanceAs (Decidable (∃ _ ∈ _, _))

/-- The clash of a member is with the first one that has its key. -/
def ClashOf (r : Decisions) (owner : ClassPlace) (members : List MemberPlace) (id : MemberPlace)
    (c : NameClash) : Prop :=
  c.owner = owner ∧ c.second = id ∧
    (members.find? fun other => targetKey r other = targetKey r id) = some c.first ∧
    c.target = targetText (targetKey r id).1 (targetKey r id).2

/-- A clash stays one when further members are listed. -/
theorem ClashOf.append {owner : ClassPlace} {members : List MemberPlace} {id : MemberPlace}
    {c : NameClash} (h : ClashOf r owner members id c) (later : List MemberPlace) :
    ClashOf r owner (members ++ later) id c := by
  refine ⟨h.1, h.2.1, ?_, h.2.2.2⟩
  rw [List.find?_append, h.2.2.1, Option.some_or]

/-- The search for clashes takes up one more member. -/
def noteTarget (r : Decisions) (owner : ClassPlace)
    (state : Std.HashMap (Bool × String × String) MemberPlace × List NameClash)
    (id : MemberPlace) : Std.HashMap (Bool × String × String) MemberPlace × List NameClash :=
  match state.1[targetKey r id]? with
  | some first =>
    (state.1, { owner, first, second := id,
                target := targetText (targetKey r id).1 (targetKey r id).2 } :: state.2)
  | none => (state.1.insert (targetKey r id) id, state.2)

/-- The clashes of a class are found by going over its members once. -/
theorem clashesIn_eq (r : Decisions) (owner : ClassPlace) :
    clashesIn r owner = ((r.graph.membersOf owner).foldl (noteTarget r owner) ({}, [])).2.reverse :=
  rfl

/-- A later member makes no earlier one repeat a key, and repeats one itself where the search finds
its key. -/
theorem filter_repeats_concat {members : List MemberPlace} {id : MemberPlace}
    (hlt : ∀ other ∈ members, other.index < id.index) :
    (members ++ [id]).filter (Repeats r (members ++ [id])) = members.filter (Repeats r members) ++
      if (members.find? fun other => targetKey r other = targetKey r id).isSome then [id]
      else [] := by
  have hearlier : ∀ a ∈ members,
      decide (Repeats r (members ++ [id]) a) = decide (Repeats r members a) := by
    intro a ha
    rw [decide_eq_decide]
    constructor
    · rintro ⟨other, hother, hindex, hkey⟩
      rcases List.mem_append.1 hother with hother | hother
      · exact ⟨other, hother, hindex, hkey⟩
      · -- The new member comes after all others.
        rw [List.mem_singleton.1 hother] at hindex
        exact absurd (hlt a ha) (Nat.lt_asymm hindex)
    · rintro ⟨other, hother, hindex, hkey⟩
      exact ⟨other, List.mem_append_left _ hother, hindex, hkey⟩
  -- Nothing comes before the new member in its own place.
  have hself : Repeats r (members ++ [id]) id ↔
      (members.find? fun other => targetKey r other = targetKey r id).isSome := by
    rw [List.find?_isSome]
    constructor
    · rintro ⟨other, hother, hindex, hkey⟩
      rcases List.mem_append.1 hother with hother | hother
      · exact ⟨other, hother, decide_eq_true hkey⟩
      · rw [List.mem_singleton.1 hother] at hindex
        exact absurd hindex (Nat.lt_irrefl _)
    · rintro ⟨other, hother, hkey⟩
      exact ⟨other, List.mem_append_left _ hother, hlt other hother, of_decide_eq_true hkey⟩
  rw [List.filter_append, List.filter_congr hearlier, List.filter_singleton]
  simp only [hself, Bool.decide_eq_true, cond_eq_ite]

/-- The search knows the first of the members met that has a key, and has found one clash for each
that repeats the key of an earlier one. -/
private theorem foldl_noteTarget {owner : ClassPlace} {members : List MemberPlace}
    (h : members.Pairwise fun a b => a.index < b.index) :
    (∀ key, (members.foldl (noteTarget r owner) ({}, [])).1[key]? =
      members.find? fun id => targetKey r id = key) ∧
    List.Forall₂ (ClashOf r owner members) (members.filter (Repeats r members))
      (members.foldl (noteTarget r owner) ({}, [])).2.reverse := by
  induction members using List.reverseRecOn with
  | nil => exact ⟨by simp, .nil⟩
  | append_singleton members id ih =>
    obtain ⟨hmembers, -, hlt⟩ := List.pairwise_append.1 h
    have hlt : ∀ other ∈ members, other.index < id.index :=
      fun other hother => hlt other hother id (List.mem_singleton_self id)
    obtain ⟨hseen, hfound⟩ := ih hmembers
    have hfound := hfound.imp fun _ _ hclash => ClashOf.append hclash [id]
    rw [List.foldl_append, List.foldl_cons, List.foldl_nil, filter_repeats_concat hlt, ← hseen]
    generalize members.foldl (noteTarget r owner) ({}, []) = state at hseen hfound
    rw [noteTarget]
    cases hkey : state.1[targetKey r id]? with
    | some first =>
      have hfirst := (hseen _).symm.trans hkey
      refine ⟨fun key => ?_, ?_⟩
      · rw [List.find?_append, hseen, List.find?_singleton]
        -- The new member is not the first with its key.
        by_cases heq : targetKey r id = key
        · rw [← heq, hfirst, Option.some_or]
        · simp [heq]
      · rw [List.reverse_cons, Option.isSome_some, if_pos rfl]
        refine List.rel_append hfound (.cons ⟨rfl, rfl, ?_, rfl⟩ .nil)
        rw [List.find?_append, hfirst, Option.some_or]
    | none =>
      refine ⟨fun key => ?_, by simpa using hfound⟩
      rw [List.find?_append, List.find?_singleton, Std.HashMap.getElem?_insert, hseen]
      by_cases heq : targetKey r id = key
      · subst heq
        rw [← hseen, hkey]
        simp
      · simp [heq]

/-- The clashes of a class are those of the members that repeat the key of an earlier one. -/
theorem forall₂_clashesIn (r : Decisions) (owner : ClassPlace) :
    List.Forall₂ (ClashOf r owner (r.graph.membersOf owner))
      ((r.graph.membersOf owner).filter (Repeats r (r.graph.membersOf owner)))
      (clashesIn r owner) := by
  rw [clashesIn_eq]
  exact (foldl_noteTarget (Graph.pairwise_membersOf _ _)).2

/-- A class has no clash iff no two of its members have one key. -/
theorem clashesIn_eq_nil_iff {owner : ClassPlace} :
    clashesIn r owner = [] ↔
      (r.graph.membersOf owner).Pairwise fun a b => targetKey r a ≠ targetKey r b := by
  rw [← eq_nil_iff_of_forall₂ (forall₂_clashesIn r owner), List.filter_eq_nil_iff]
  constructor
  -- Of two members with one key the later one would repeat the earlier.
  · intro hnone
    refine (Graph.pairwise_membersOf _ _).imp_of_mem fun {a b} ha hb hlt hkey => ?_
    exact hnone b hb (decide_eq_true ⟨a, ha, hlt, hkey⟩)
  · intro hpairwise id hid hrepeats
    obtain ⟨other, hother, hlt, hkey⟩ := of_decide_eq_true hrepeats
    have hsymm : Std.Symm fun a b => targetKey r a ≠ targetKey r b := ⟨fun _ _ => Ne.symm⟩
    have hne : other ≠ id := fun heq => Nat.ne_of_lt hlt (congrArg MemberPlace.index heq)
    exact hpairwise.forall hother hid hne hkey

/-- Members that clash have one key, and one comes before the other. -/
theorem mem_clashesIn {owner : ClassPlace} {c : NameClash} (h : c ∈ clashesIn r owner) :
    [c.first, c.second].Sublist (r.graph.membersOf owner) ∧
      targetKey r c.first = targetKey r c.second := by
  obtain ⟨id, hid, -, rfl, hfirst, -⟩ := exists_of_mem_forall₂ (forall₂_clashesIn r owner).flip h
  obtain ⟨hmem, hrepeats⟩ := List.mem_filter.1 hid
  obtain ⟨other, hother, hlt, hkey⟩ := of_decide_eq_true hrepeats
  obtain ⟨hsame, before, after, hsplit, hbefore⟩ := List.find?_eq_some_iff_append.1 hfirst
  have hpairwise := r.graph.pairwise_membersOf owner
  rw [hsplit] at hmem hother hpairwise ⊢
  obtain ⟨-, hafter, -⟩ := List.pairwise_append.1 hpairwise
  -- What has the key of the second member is the first one, or comes after it.
  have hplace : ∀ id ∈ before ++ c.first :: after, targetKey r id = targetKey r c.second →
      id = c.first ∨ id ∈ after := by
    intro id hid hkey
    rcases List.mem_append.1 hid with hid | hid
    · exact absurd hkey (by simpa using hbefore id hid)
    · exact List.mem_cons.1 hid
  refine ⟨?_, of_decide_eq_true hsame⟩
  rcases hplace _ hmem rfl with heq | hsecond
  · -- The first member is not the second, which repeats the key of an earlier one.
    rw [heq] at hlt
    rcases hplace _ hother hkey with rfl | hother
    · exact absurd hlt (Nat.lt_irrefl _)
    · exact absurd hlt (Nat.lt_asymm (List.rel_of_pairwise_cons hafter hother))
  · exact ((List.singleton_sublist.2 hsecond).cons_cons _).trans (List.sublist_append_right _ _)

/-- No members clash exactly where those of no input class do. -/
theorem memberClashes_eq_nil_iff {d : Draft} :
    d.memberClashes = [] ↔ ∀ c < d.decisions.graph.size, (d.decisions.graph.classAt c).isInput →
      clashesIn d.decisions c = [] := by
  simp only [memberClashes, Graph.places, List.flatMap_eq_nil_iff, List.mem_filter, List.mem_range,
    and_imp]

/-! ### Clashes of classes -/

/-- Whether a class has a say in names. -/
def hasSay (c : ClassShape) : Bool :=
  c.origin = .input || c.origin = .classpath

/-- The search knows the classes it met by the names they get. -/
private def Owns (r : Decisions) (owners : Std.HashMap String String) (met : List ClassShape) :
    Prop :=
  ∀ name owner : String, owners[name]? = some owner ↔
    ∃ c ∈ met, r.className c.name = name ∧ c.name = owner

/-- A class with a name of its own is noted. -/
private theorem Owns.insert {owners : Std.HashMap String String} {met : List ClassShape}
    (h : Owns r owners met) {c : ClassShape}
    (hnew : ∀ c' ∈ met, r.className c'.name ≠ r.className c.name) :
    Owns r (owners.insert (r.className c.name) c.name) (met ++ [c]) := by
  intro name owner
  rw [Std.HashMap.getElem?_insert]
  -- The new name is that of this class, any other name is as it was.
  by_cases hname : r.className c.name = name
  · subst hname
    simp only [beq_self_eq_true, if_true, Option.some.injEq, List.mem_append, List.mem_singleton]
    constructor
    · rintro rfl
      exact ⟨c, .inr rfl, rfl, rfl⟩
    · rintro ⟨c', hc' | rfl, hsame, rfl⟩
      · exact absurd hsame (hnew c' hc')
      · rfl
  · rw [if_neg (by simpa using hname), h]
    constructor
    · rintro ⟨c', hc', hsame⟩
      exact ⟨c', List.mem_append_left _ hc', hsame⟩
    · rintro ⟨c', hc', hsame, howner⟩
      rcases List.mem_append.1 hc' with hc' | hc'
      · exact ⟨c', hc', hsame, howner⟩
      · rw [List.mem_singleton.1 hc'] at hsame
        exact absurd hsame hname

/-- The search ends at the first class with the name of one that was met before. -/
private theorem search_eq {owners : Std.HashMap String String} {met classes : List ClassShape}
    (hmet : met.Pairwise fun a b => r.className a.name ≠ r.className b.name)
    (howners : Owns r owners met) :
    (classClash?.search r owners classes = none ∧
      (met ++ classes).Pairwise fun a b => r.className a.name ≠ r.className b.name) ∨
    ∃ before c after c', met ++ classes = before ++ c :: after ∧
      before.Pairwise (fun a b => r.className a.name ≠ r.className b.name) ∧
      c' ∈ before ∧ r.className c'.name = r.className c.name ∧
      classClash?.search r owners classes = some (c'.name, c.name, r.className c.name) := by
  induction classes generalizing met owners with
  | nil => exact .inl ⟨rfl, by rwa [List.append_nil]⟩
  | cons c rest ih =>
    -- The class has the name of one that was met, or is met itself.
    cases hfound : owners[r.className c.name]? with
    | some first =>
      obtain ⟨c', hc', hsame, rfl⟩ := (howners _ _).1 hfound
      refine .inr ⟨met, c, rest, c', rfl, hmet, hc', hsame, ?_⟩
      simp only [classClash?.search, hfound]
    | none =>
      have hnew : ∀ c' ∈ met, r.className c'.name ≠ r.className c.name := fun c' hc' hsame => by
        rw [(howners _ _).2 ⟨c', hc', hsame, rfl⟩] at hfound
        cases hfound
      have hmet' : (met ++ [c]).Pairwise fun a b => r.className a.name ≠ r.className b.name := by
        refine List.pairwise_append.2 ⟨hmet, List.pairwise_singleton _ _, fun c' hc' b hb => ?_⟩
        rw [List.mem_singleton.1 hb]
        exact hnew c' hc'
      have hrest := ih hmet' (howners.insert hnew)
      rw [List.append_assoc, List.singleton_append] at hrest
      simpa only [classClash?.search, hfound] using hrest

/-- A clash is between the first class, of those that have a say, with the name of one before it,
and that one. -/
theorem exists_of_classClash? {first second target : String}
    (h : classClash? r = some (first, second, target)) :
    ∃ before c after c', r.graph.classes.toList.filter hasSay = before ++ c :: after ∧
      before.Pairwise (fun a b => r.className a.name ≠ r.className b.name) ∧
      c' ∈ before ∧ r.className c'.name = target ∧ r.className c.name = target ∧
      c'.name = first ∧ c.name = second := by
  -- Before the first class no name is taken.
  have hempty : Owns r {} [] := fun _ _ => by simp
  rcases search_eq .nil hempty with
    ⟨hnone, -⟩ | ⟨before, c, after, c', hsplit, hbefore, hc', hsame, hsome⟩
  · cases hnone.symm.trans h
  · obtain ⟨rfl, rfl, rfl⟩ := Option.some.inj (hsome.symm.trans h)
    exact ⟨before, c, after, c', hsplit, hbefore, hc', hsame, rfl, rfl, rfl⟩

/-- There is no clash of classes iff no two that have a say get one name. -/
theorem classClash?_eq_none_iff :
    classClash? r = none ↔ r.graph.classes.toList.Pairwise fun a b =>
      hasSay a → hasSay b → r.className a.name ≠ r.className b.name := by
  rw [← List.pairwise_filter]
  have hempty : Owns r {} [] := fun _ _ => by simp
  rcases search_eq .nil hempty with
    ⟨hnone, hpairwise⟩ | ⟨before, c, after, c', hsplit, -, hc', hsame, hsome⟩
  · exact ⟨fun _ => hpairwise, fun _ => hnone⟩
  -- With a clash two classes would have one name.
  · constructor
    · intro hnone
      cases hsome.symm.trans hnone
    · intro hpairwise
      rw [List.nil_append] at hsplit
      rw [hsplit] at hpairwise
      exact absurd hsame ((List.pairwise_append.1 hpairwise).2.2 c' hc' c List.mem_cons_self)

end Draft

end Relabel
