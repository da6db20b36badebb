import Relabel.Decisions.OfGraph
import Relabel.Proofs.Steps

/-!
# Steps that decide on names

The mappings give names once; after that names are only taken back. A loop that settles clashes
makes passes, each of which takes one name back and starts the search again. The number of names
that can still be taken back falls with each pass, and both loops have one more pass to spend than
there are such names, so both come to their end.

## Main results

- `Draft.exists_of_memberPass`, `Draft.exists_of_classPass`: what one pass does.
- `Draft.endsAt_settleMembers`, `Draft.endsAt_settleClasses`: the loops end, and what is left then.
- `Decisions.ofGraph_ok`: the steps of a successful decision.
- `Decisions.retreats_of_ofGraph`: after the first step, names are only taken back.
-/

namespace Relabel

/-! ### Taking names back -/

namespace Decisions

/-- Decisions on the same graph, by the same mappings, with no name that was not there before. -/
structure Retreats (r r' : Decisions) : Prop where
  graph : r'.graph = r.graph
  linkage : r'.linkage = r.linkage
  mappings : r'.mappings = r.mappings
  groupNames : ∀ k x, r'.groupNames.getD k none = some x → r.groupNames.getD k none = some x
  fieldNames : ∀ n x, r'.fieldNames.getD n none = some x → r.fieldNames.getD n none = some x

namespace Retreats

variable {r r' r'' : Decisions}

theorem refl (r : Decisions) : r.Retreats r :=
  ⟨rfl, rfl, rfl, fun _ _ h => h, fun _ _ h => h⟩

/-- What is taken back in two steps is taken back. -/
theorem trans (h : r.Retreats r') (h' : r'.Retreats r'') : r.Retreats r'' where
  graph := h'.graph.trans h.graph
  linkage := h'.linkage.trans h.linkage
  mappings := h'.mappings.trans h.mappings
  groupNames k x hx := h.groupNames k x (h'.groupNames k x hx)
  fieldNames n x hx := h.fieldNames n x (h'.fieldNames n x hx)

end Retreats

end Decisions

namespace Draft

variable {options : Options} {d d' : Draft}

/-- A name that is left was there before another was taken away. -/
private theorem getD_of_getD_setIfInBounds {names : Array (Option String)} {i k : Nat} {x : String}
    (h : (names.setIfInBounds i none).getD k none = some x) : names.getD k none = some x := by
  rw [Array.getD_eq_getD_getElem?, Array.getElem?_setIfInBounds] at h
  rw [Array.getD_eq_getD_getElem?]
  by_cases hik : i = k
  · -- The entry that was set holds nothing, in bounds or not.
    rw [if_pos hik] at h
    split at h <;> cases h
  · rwa [if_neg hik] at h

/-- Keeping a member takes names back and gives none. -/
theorem retreats_keepMember (d : Draft) (id : MemberPlace) :
    d.decisions.Retreats (d.keepMember id).decisions := by
  unfold keepMember
  dsimp only
  split
  · split
    · exact ⟨rfl, rfl, rfl, fun _ _ h => getD_of_getD_setIfInBounds h, fun _ _ h => h⟩
    · exact .refl _
  · exact ⟨rfl, rfl, rfl, fun _ _ h => h, fun _ _ h => getD_of_getD_setIfInBounds h⟩

/-- Taking the name of a member back is no matter of classes. -/
theorem mapClass_keepMember (d : Draft) (id : MemberPlace) :
    (d.keepMember id).decisions.mapClass = d.decisions.mapClass := by
  unfold keepMember
  dsimp only
  split
  · split <;> rfl
  · rfl

/-! ### Members, pass by pass -/

/-- The draft after one more pass over the clashes of members, where one gives way. -/
def memberPass (options : Options) (d : Draft) : Option Draft :=
  (d.memberClashes.findSome? fun c => (d.givesWay? options c).map (c, ·)).map
    fun (c, victim, kept) => (d.keepMember victim).warn
      (.conflictIgnored (d.decisions.graph.classAt c.owner).name (d.decisions.describeMember kept)
        (d.decisions.describeMember victim) c.target)

/-- Settling members ends where no pass changes the draft, and goes on after one that does. -/
theorem settleMembersFrom_succ (fuel : Nat) (d : Draft) :
    settleMembersFrom options (fuel + 1) d = match memberPass options d with
      | none => (d.memberClashes.map (clashProblem d.decisions), d)
      | some d' => settleMembersFrom options fuel d' := by
  simp only [settleMembersFrom, memberPass]
  cases d.memberClashes.findSome? fun c => (d.givesWay? options c).map (c, ·) <;> rfl

/-- A pass takes back the name of one member that has a new one. -/
theorem exists_of_memberPass (h : memberPass options d = some d') :
    ∃ victim w, d.hasNewName victim ∧ d' = (d.keepMember victim).warn w := by
  obtain ⟨⟨c, victim, kept⟩, hfound, rfl⟩ := Option.map_eq_some_iff.1 h
  refine ⟨victim, _, ?_, rfl⟩
  obtain ⟨c', -, hc'⟩ := List.exists_of_findSome?_eq_some hfound
  obtain ⟨⟨victim', kept'⟩, hgives, heq⟩ := Option.map_eq_some_iff.1 hc'
  obtain ⟨rfl, rfl, rfl⟩ := heq
  -- Whoever gives way was found to have a new name.
  unfold givesWay? at hgives
  split at hgives
  · cases hgives
  · split at hgives
    · next hsecond =>
      obtain ⟨rfl, -⟩ := Prod.mk.inj (Option.some.inj hgives)
      exact hsecond
    · split at hgives
      · next hfirst =>
        obtain ⟨rfl, -⟩ := Prod.mk.inj (Option.some.inj hgives)
        exact hfirst
      · cases hgives

/-- One name less is one less to count. -/
theorem countP_setIfInBounds_lt {names : Array (Option String)} {i : Nat}
    (h : (names.getD i none).isSome) :
    (names.setIfInBounds i none).countP Option.isSome < names.countP Option.isSome := by
  rw [Array.getD_eq_getD_getElem?] at h
  -- The entry is counted before and not after, and outside the array there is none.
  by_cases hi : i < names.size
  · rw [Array.getElem?_eq_getElem hi, Option.getD_some] at h
    have hpos : 0 < names.countP Option.isSome :=
      Array.countP_pos_iff.2 ⟨names[i], Array.getElem_mem hi, h⟩
    rw [Array.setIfInBounds_def, dif_pos hi, Array.countP_set hi]
    simp only [h, if_true, Option.isSome_none, Bool.false_eq_true, if_false]
    omega
  · rw [Array.getElem?_eq_none (Nat.le_of_not_lt hi)] at h
    cases h

/-- A name that is taken back is one less. -/
theorem renamedCount_keepMember_lt {id : MemberPlace} (h : d.hasNewName id) :
    renamedCount (d.keepMember id).decisions < renamedCount d.decisions := by
  unfold hasNewName Decisions.newName at h
  unfold keepMember
  dsimp only
  -- A method gives up the name of its group, a field its own.
  split at h
  · next hmethod =>
    rw [if_pos hmethod]
    cases hgroup : d.decisions.linkage.groupNumber? d.decisions.graph id with
    | none => simp [hgroup] at h
    | some group =>
      rw [hgroup, Option.bind_some] at h
      exact Nat.add_lt_add_right (countP_setIfInBounds_lt h) _
  · next hfield =>
    rw [if_neg hfield]
    exact Nat.add_lt_add_left (countP_setIfInBounds_lt h) _

/-- With more passes to spend than names to take back the loop over members ends, and the clashes
that are left are its problems. -/
private theorem endsAt_settleMembersFrom {fuel : Nat} (h : renamedCount d.decisions < fuel) :
    EndsAt (memberPass options) d (settleMembersFrom options fuel d).2 ∧
      (settleMembersFrom options fuel d).1 =
        (settleMembersFrom options fuel d).2.memberClashes.map
          (clashProblem (settleMembersFrom options fuel d).2.decisions) := by
  induction fuel generalizing d with
  | zero => exact absurd h (Nat.not_lt_zero _)
  | succ fuel ih =>
    rw [settleMembersFrom_succ]
    cases hpass : memberPass options d with
    | none => exact ⟨.stop hpass, rfl⟩
    -- A pass leaves fewer new names than there were, so the fuel lasts.
    | some d' =>
      obtain ⟨victim, w, hnew, rfl⟩ := exists_of_memberPass hpass
      have hless : renamedCount ((d.keepMember victim).warn w).decisions < fuel :=
        Nat.lt_of_lt_of_le (renamedCount_keepMember_lt hnew) (Nat.le_of_lt_succ h)
      obtain ⟨hends, hproblems⟩ := ih hless
      exact ⟨.pass hpass hends, hproblems⟩

/-- The loop over members ends; the clashes that are left are its problems. -/
theorem endsAt_settleMembers (d : Draft) (options : Options) :
    EndsAt (memberPass options) d (d.settleMembers options).2 ∧
      (d.settleMembers options).1 = (d.settleMembers options).2.memberClashes.map
        (clashProblem (d.settleMembers options).2.decisions) :=
  endsAt_settleMembersFrom (Nat.lt_succ_self _)

/-- Passes over the members take names back and leave the classes. -/
theorem retreats_of_memberPasses (h : EndsAt (memberPass options) d d') :
    d.decisions.Retreats d'.decisions ∧ d'.decisions.mapClass = d.decisions.mapClass := by
  induction h with
  | stop => exact ⟨.refl _, rfl⟩
  | pass hpass _ ih =>
    obtain ⟨victim, w, -, rfl⟩ := exists_of_memberPass hpass
    exact ⟨(retreats_keepMember _ victim).trans ih.1, ih.2.trans (mapClass_keepMember _ victim)⟩

/-! ### Classes, pass by pass -/

/-- The draft after one more pass over the classes, where one gives way. -/
def classPass (options : Options) (d : Draft) : Option Draft :=
  match classClash? d.decisions with
  | none => none
  | some (first, second, target) =>
    if options.ignoreConflicts && (d.decisions.mapClass second).isSome then
      some ((d.keepClass second).warn (.conflictIgnored target first second target))
    else if options.ignoreConflicts && (d.decisions.mapClass first).isSome then
      some ((d.keepClass first).warn (.conflictIgnored target second first target))
    else none

/-- The clash of classes that is left, as a problem. -/
def classProblems (r : Decisions) : List Problem :=
  match classClash? r with
  | none => []
  | some (first, second, target) => [.conflict target first second target]

/-- Settling classes ends where no pass changes the draft, and goes on after one that does. -/
theorem settleClassesFrom_succ (fuel : Nat) (d : Draft) :
    settleClassesFrom options (fuel + 1) d = match classPass options d with
      | none => (classProblems d.decisions, d)
      | some d' => settleClassesFrom options fuel d' := by
  simp only [settleClassesFrom, classPass, classProblems]
  cases hclash : classClash? d.decisions with
  | none => rfl
  | some clash =>
    obtain ⟨first, second, target⟩ := clash
    dsimp only
    -- Both forms test the second class before the first one.
    by_cases hsecond : options.ignoreConflicts && (d.decisions.mapClass second).isSome
    · rw [if_pos hsecond, if_pos hsecond]
    · rw [if_neg hsecond, if_neg hsecond]
      by_cases hfirst : options.ignoreConflicts && (d.decisions.mapClass first).isSome
      · rw [if_pos hfirst, if_pos hfirst]
      · rw [if_neg hfirst, if_neg hfirst]

/-- The names in a clash are those of classes: the second of one still to come, the first of one
that was met before or is still to come. -/
private theorem names_of_search {r : Decisions} {owners : Std.HashMap String String}
    {classes : List ClassShape} {first second target : String}
    (h : classClash?.search r owners classes = some (first, second, target)) :
    (∃ c ∈ classes, c.name = second) ∧
      ((∃ key : String, owners[key]? = some first) ∨ ∃ c ∈ classes, c.name = first) := by
  induction classes generalizing owners with
  | nil => cases h
  | cons c rest ih =>
    rw [classClash?.search] at h
    split at h
    · next found hfound =>
      obtain ⟨rfl, rfl, -⟩ := Option.some.inj h
      exact ⟨⟨c, List.mem_cons_self, rfl⟩, .inl ⟨_, hfound⟩⟩
    · obtain ⟨⟨c', hc', hsecond⟩, hfirst⟩ := ih h
      refine ⟨⟨c', List.mem_cons_of_mem _ hc', hsecond⟩, ?_⟩
      rcases hfirst with ⟨key, hkey⟩ | ⟨c'', hc'', hname⟩
      -- What the rest met before is what was known already, or this class.
      · rw [Std.HashMap.getElem?_insert] at hkey
        split at hkey
        · exact .inr ⟨c, List.mem_cons_self, Option.some.inj hkey⟩
        · exact .inl ⟨key, hkey⟩
      · exact .inr ⟨c'', List.mem_cons_of_mem _ hc'', hname⟩

/-- A pass takes back the name of one class of the graph that has a new one. -/
theorem exists_of_classPass (h : classPass options d = some d') :
    ∃ c ∈ d.decisions.graph.classes.toList, ∃ w, (d.decisions.mapClass c.name).isSome ∧
      d' = (d.keepClass c.name).warn w := by
  unfold classPass at h
  split at h
  · cases h
  · next first second target hclash =>
    -- Both classes of the clash are in the graph, whichever of the two gives way.
    obtain ⟨⟨c, hc, rfl⟩, hfirst⟩ := names_of_search hclash
    rcases hfirst with ⟨key, hkey⟩ | ⟨c', hc', rfl⟩
    · simp at hkey
    have hmem : ∀ {c}, c ∈ d.decisions.graph.classes.toList.filter
        (fun c => c.origin = .input || c.origin = .classpath) →
        c ∈ d.decisions.graph.classes.toList := fun hc => (List.mem_filter.1 hc).1
    split at h
    · next hnew =>
      rw [Bool.and_eq_true] at hnew
      exact ⟨c, hmem hc, _, hnew.2, (Option.some.inj h).symm⟩
    · split at h
      · next hnew =>
        rw [Bool.and_eq_true] at hnew
        exact ⟨c', hmem hc', _, hnew.2, (Option.some.inj h).symm⟩
      · cases h

/-- The number of classes whose names were not taken back. -/
def freeCount (r : Decisions) : Nat :=
  r.graph.classes.toList.countP fun c => !r.keptClasses.contains c.name

/-- A class whose name is taken back is one less that can give way. -/
theorem freeCount_keepClass_lt {c : ClassShape} (hc : c ∈ d.decisions.graph.classes.toList)
    (h : (d.decisions.mapClass c.name).isSome) :
    freeCount (d.keepClass c.name).decisions < freeCount d.decisions := by
  have hfree : d.decisions.keptClasses.contains c.name = false := by
    unfold Decisions.mapClass at h
    split at h
    · cases h
    · next hnot => exact Bool.eq_false_iff.2 hnot
  -- The class itself counts before and not afterwards; no other comes to count.
  refine countP_lt_countP (fun c' hc' => ?_) hc ?_ ?_
  · simp_all [keepClass]
  · simp [keepClass]
  · simp [hfree]

/-- With more passes to spend than classes that can give way the loop over classes ends, and the
clash that is left is its problem. -/
private theorem endsAt_settleClassesFrom {fuel : Nat} (h : freeCount d.decisions < fuel) :
    EndsAt (classPass options) d (settleClassesFrom options fuel d).2 ∧
      (settleClassesFrom options fuel d).1 =
        classProblems (settleClassesFrom options fuel d).2.decisions := by
  induction fuel generalizing d with
  | zero => exact absurd h (Nat.not_lt_zero _)
  | succ fuel ih =>
    rw [settleClassesFrom_succ]
    cases hpass : classPass options d with
    | none => exact ⟨.stop hpass, rfl⟩
    -- A pass leaves fewer classes free to be renamed, so the fuel lasts.
    | some d' =>
      obtain ⟨c, hc, w, hnew, rfl⟩ := exists_of_classPass hpass
      have hless : freeCount ((d.keepClass c.name).warn w).decisions < fuel :=
        Nat.lt_of_lt_of_le (freeCount_keepClass_lt hc hnew) (Nat.le_of_lt_succ h)
      obtain ⟨hends, hproblems⟩ := ih hless
      exact ⟨.pass hpass hends, hproblems⟩

/-- The loop over classes ends; the clash that is left is its problem. -/
theorem endsAt_settleClasses (d : Draft) (options : Options) :
    EndsAt (classPass options) d (d.settleClasses options).2 ∧
      (d.settleClasses options).1 = classProblems (d.settleClasses options).2.decisions :=
  endsAt_settleClassesFrom (Nat.lt_succ_of_le List.countP_le_length)

/-- Passes over the classes take names back. -/
theorem retreats_of_classPasses (h : EndsAt (classPass options) d d') :
    d.decisions.Retreats d'.decisions := by
  induction h with
  | stop => exact .refl _
  | pass hpass _ ih =>
    obtain ⟨c, -, w, -, rfl⟩ := exists_of_classPass hpass
    exact ⟨ih.graph, ih.linkage, ih.mappings, ih.groupNames, ih.fieldNames⟩

/-! ### The other steps -/

/-- The first step takes the names from the mappings. -/
theorem decisions_takeNames (d : Draft) (options : Options) :
    (d.takeNames options).2.decisions = { d.decisions with
      groupNames := chosenNames d.decisions
      fieldNames := chosenFields d.decisions } := by
  simp only [takeNames]
  split
  · refine List.foldlRecOn (motive := fun e : Draft => e.decisions = { d.decisions with
        groupNames := chosenNames d.decisions
        fieldNames := chosenFields d.decisions }) _ _ rfl ?_
    exact fun e he _ _ => he
  · rfl

/-- The last step makes members and classes public, and changes nothing else. -/
theorem decisions_reviewAccess (d : Draft) (options : Options) :
    ∃ members classes, (d.reviewAccess options).decisions = { d.decisions with
      publishedMembers := members
      publishedClasses := classes } := by
  -- Each breach adds to what is public, so the induction is over the breaches.
  refine List.foldlRecOn (motive := fun e : Draft => ∃ members classes,
    e.decisions = { d.decisions with
      publishedMembers := members
      publishedClasses := classes }) _ _ ⟨_, _, rfl⟩ ?_
  rintro e ⟨members, classes, he⟩ ⟨referencing, name | id⟩ -
  all_goals
    simp only [noteBreach]
    split
    · simp only [warn, publishClass, publishMember, he]
      exact ⟨_, _, rfl⟩
    · exact ⟨members, classes, he⟩

end Draft

namespace Decisions

variable {graph : Graph} {mappings : Mapping.Renames} {options : Options} {r : Decisions}
  {warnings : List Warning}

/-- Decisions are made where no step has a problem: names first, then clashes of classes, then those
of members; at last things may become public. -/
theorem ofGraph_ok (h : ofGraph graph mappings options = .ok (r, warnings)) :
    ∃ named classesSettled settled : Draft,
      (Draft.start graph mappings options).takeNames options = ([], named) ∧
      named.settleClasses options = ([], classesSettled) ∧
      classesSettled.settleMembers options = ([], settled) ∧
      ∃ members classes, r = { settled.decisions with
        publishedMembers := members
        publishedClasses := classes } := by
  rcases hnamed : (Draft.start graph mappings options).takeNames options with ⟨problems, named⟩
  rcases hclasses : named.settleClasses options with ⟨problems', classesSettled⟩
  rcases hmembers : classesSettled.settleMembers options with ⟨problems'', settled⟩
  simp only [ofGraph, hnamed, hclasses, hmembers] at h
  -- Where any of the steps has a problem, there is no result.
  split at h
  · next hproblems =>
    obtain ⟨hr, -⟩ := Prod.mk.inj (Except.ok.inj h)
    rw [List.append_eq_nil_iff, List.append_eq_nil_iff] at hproblems
    obtain ⟨⟨rfl, rfl⟩, rfl⟩ := hproblems
    refine ⟨named, classesSettled, settled, rfl, hclasses, hmembers, ?_⟩
    rw [← hr]
    split
    · exact Draft.decisions_reviewAccess settled options
    · exact ⟨_, _, rfl⟩
  · cases h

/-- Once the names are taken from the mappings, they are only taken back. -/
theorem retreats_of_ofGraph (h : ofGraph graph mappings options = .ok (r, warnings)) :
    ({ (Draft.start graph mappings options).decisions with
      groupNames := Draft.chosenNames (Draft.start graph mappings options).decisions
      fieldNames := Draft.chosenFields (Draft.start graph mappings options).decisions } :
      Decisions).Retreats r := by
  obtain ⟨named, classesSettled, settled, hnamed, hclasses, hmembers, _, _, rfl⟩ := ofGraph_ok h
  -- The classes are settled first and the members then, and both only take names back.
  have hends := (Draft.endsAt_settleClasses named options).1
  have hends' := (Draft.endsAt_settleMembers classesSettled options).1
  rw [hclasses] at hends
  rw [hmembers] at hends'
  have hretreats := (Draft.retreats_of_classPasses hends).trans
    (Draft.retreats_of_memberPasses hends').1
  rw [← Draft.decisions_takeNames, hnamed]
  exact ⟨hretreats.graph, hretreats.linkage, hretreats.mappings, hretreats.groupNames,
    hretreats.fieldNames⟩

end Decisions

end Relabel
