import Relabel.Proofs.Decisions.Conflicts
import Relabel.Proofs.Mapping.NestedNames

/-!
# Nested classes and names taken back

By the mappings a nested class without a row of its own follows the class around it. The decisions
take names back class by class, where classes clash and conflicts are ignored, and a nested class
does not take part in that: it follows the name that the mappings give the class around it, whether
that name is taken back or not. So it follows the decided name of a class iff that keeps the name
from the mappings.

## Main results

- `Decisions.kept_of_ofGraph`: whose name is taken back, and when.
- `Decisions.className_nested_of_ofGraph`: what nested classes are named after.
-/

namespace Relabel

namespace Decisions

/-- A class has the name that the mappings give, unless that was taken back. -/
theorem className_eq (r : Decisions) (name : String) :
    r.className name =
      if r.keptClasses.contains name then name else r.mappings.className name := by
  simp only [className, mapClass, Mapping.Renames.className]
  split
  · rfl
  · cases hnew : r.mappings.mapClass name with
    | none => rfl
    | some new =>
      have hne := Mapping.Renames.ne_of_mapClass hnew
      simp [Option.filter, hne]

/-! ### Whose name is taken back -/

/-- A class can lose its new name where conflicts are ignored, if it is in the graph and the mappings
rename it. -/
structure CanGiveWay (r : Decisions) (options : Options) (name : String) : Prop where
  ignored : options.ignoreConflicts
  listed : ∃ c ∈ r.graph.classes.toList, c.name = name
  renamed : (r.mappings.mapClass name).isSome

/-- Names are taken back only of classes that can give way. -/
def KeepsOnlyLosers (r : Decisions) (options : Options) : Prop :=
  ∀ name, r.keptClasses.contains name → r.CanGiveWay options name

end Decisions

namespace Draft

variable {options : Options} {d d' : Draft}

/-- A pass over the classes keeps the names of losers only. -/
theorem keepsOnlyLosers_classPass (h : classPass options d = some d')
    (hd : d.decisions.KeepsOnlyLosers options) : d'.decisions.KeepsOnlyLosers options := by
  have hignored : options.ignoreConflicts := by
    cases hignore : options.ignoreConflicts with
    | true => rfl
    | false => cases (classPass_eq_none hignore d).symm.trans h
  obtain ⟨c, hc, w, hnew, rfl⟩ := exists_of_classPass h
  have hrenamed : (d.decisions.mappings.mapClass c.name).isSome := by
    obtain ⟨new, hnew⟩ := Option.isSome_iff_exists.1 hnew
    rw [Decisions.mapClass, Option.ite_none_left_eq_some, Option.filter_eq_some_iff] at hnew
    exact Option.isSome_of_eq_some hnew.2.1
  intro name hname
  -- The names that are taken back are those from before and that of this class.
  have hkept : c.name = name ∨ d.decisions.keptClasses.contains name := by
    simpa [keepClass, warn] using hname
  rcases hkept with rfl | hkept
  · exact ⟨hignored, ⟨c, hc, rfl⟩, hrenamed⟩
  · obtain ⟨-, hlisted, hrenamed⟩ := hd name hkept
    exact ⟨hignored, hlisted, hrenamed⟩

/-- Keeping a member keeps no class. -/
theorem keptClasses_keepMember (d : Draft) (id : MemberPlace) :
    (d.keepMember id).decisions.keptClasses = d.decisions.keptClasses := by
  unfold keepMember
  dsimp only
  split
  · split <;> rfl
  · rfl

theorem keptClasses_memberPass (h : memberPass options d = some d') :
    d'.decisions.keptClasses = d.decisions.keptClasses := by
  obtain ⟨victim, w, -, rfl⟩ := exists_of_memberPass h
  exact keptClasses_keepMember d victim

end Draft

namespace Decisions

variable {graph : Graph} {mappings : Mapping.Renames} {options : Options} {r : Decisions}
  {warnings : List Warning}

/-- Where a name is taken back, the class was in the graph and renamed by the mappings, and conflicts
are ignored. -/
theorem kept_of_ofGraph (h : ofGraph graph mappings options = .ok (r, warnings)) :
    r.KeepsOnlyLosers options := by
  obtain ⟨named, classesSettled, settled, hnamed, hclasses, hmembers, _, _, rfl⟩ := ofGraph_ok h
  have hstart : named.decisions.KeepsOnlyLosers options := by
    have hdecisions := Draft.decisions_takeNames (Draft.start graph mappings options) options
    rw [hnamed] at hdecisions
    have hnone : named.decisions.keptClasses = {} := congrArg Decisions.keptClasses hdecisions
    intro name hname
    simp [hnone] at hname
  have hends := (Draft.endsAt_settleClasses named options).1
  have hends' := (Draft.endsAt_settleMembers classesSettled options).1
  rw [hclasses] at hends
  rw [hmembers] at hends'
  -- Only the passes over the classes keep classes; those over the members leave that set alone.
  have hlosers : classesSettled.decisions.KeepsOnlyLosers options :=
    hends.invariant (fun _ _ => Draft.keepsOnlyLosers_classPass) hstart
  have hkept : settled.decisions.keptClasses = classesSettled.decisions.keptClasses :=
    hends'.invariant (P := fun d => d.decisions.keptClasses = classesSettled.decisions.keptClasses)
      (fun _ _ hpass hd => (Draft.keptClasses_memberPass hpass).trans hd) rfl
  have hretreats := (Draft.retreats_of_memberPasses hends').1
  intro name hname
  obtain ⟨hignored, hlisted, hrenamed⟩ := hlosers name (hkept ▸ hname)
  exact ⟨hignored, hretreats.graph ▸ hlisted, hretreats.mappings ▸ hrenamed⟩

/-! ### Nested classes -/

/-- A nested class without a row of its own whose name is not taken back is named after the name that
the mappings give the class around it. That is the decided name of that class unless it was taken
back, which needs conflicts to be ignored. -/
theorem className_nested_of_ofGraph (h : ofGraph graph mappings options = .ok (r, warnings))
    {outer inner : String} (hinner : '$' ∉ inner.toList)
    (hrow : mappings.classes[outer ++ "$" ++ inner]? = none)
    (hkept : r.keptClasses.contains (outer ++ "$" ++ inner) = false) :
    r.className (outer ++ "$" ++ inner) = mappings.className outer ++ "$" ++ inner ∧
      (r.className (outer ++ "$" ++ inner) = r.className outer ++ "$" ++ inner ↔
        r.keptClasses.contains outer = false) ∧
      (options.ignoreConflicts = false → r.keptClasses.contains outer = false) := by
  have hmappings : r.mappings = mappings := (retreats_of_ofGraph h).mappings
  have hlosers := kept_of_ofGraph h outer
  have hname : r.className (outer ++ "$" ++ inner) = mappings.className outer ++ "$" ++ inner := by
    rw [className_eq, hkept, if_neg Bool.false_ne_true, hmappings,
      Mapping.Renames.className_nested hinner hrow]
  refine ⟨hname, ?_, ?_⟩
  · rw [hname, className_eq, hmappings]
    cases houter : r.keptClasses.contains outer with
    | false => simp
    | true =>
      -- A class whose name was taken back has another one by the mappings.
      obtain ⟨new, hnew⟩ := Option.isSome_iff_exists.1 (hlosers houter).renamed
      rw [hmappings] at hnew
      have hne := Mapping.Renames.ne_of_mapClass hnew
      simp [Mapping.Renames.className, hnew, hne]
  · intro hstrict
    cases houter : r.keptClasses.contains outer with
    | false => rfl
    | true => cases hstrict.symm.trans (hlosers houter).ignored

/-! ### A class that does not get the name of another -/

/-- An input without members. -/
def emptyShape (name : String) : ClassShape :=
  { name, access := .onlyPublic, origin := .input }

/-- Two classes without members. -/
def emptyShapes : List ClassShape :=
  [emptyShape "A", emptyShape "B"]

/-- The mappings give the first class the name of the second. -/
def taking : Mapping.Renames where
  classes := .ofList [("A", "B")]

/-- The two classes are resolved, for conflicts are ignored. -/
theorem isOk_ofGraph_taking :
    ∃ result, ofGraph (.ofShapes emptyShapes) taking { ignoreConflicts := true } = .ok result := by
  have hperm : (Graph.ofShapes emptyShapes).classes.toList.Perm emptyShapes :=
    List.mergeSort_perm _ _
  have hnames : (Graph.ofShapes emptyShapes).classes.toList.Pairwise fun a b => a.name ≠ b.name :=
    (hperm.pairwise_iff fun h => h.symm).2 (List.pairwise_pair.2 (by decide))
  refine (isOk_ofGraph_iff_memberClashes rfl hnames).2 ?_
  -- Where there are no members, none clash.
  refine Draft.memberClashes_eq_nil_iff.2 fun c hc _ => Draft.clashesIn_eq_nil_iff.2 ?_
  rw [Draft.graph_settled] at hc ⊢
  have hempty : ∀ shape ∈ emptyShapes, shape.members = #[] := by decide
  have hmembers := hempty _ (Graph.classAt_mem hc)
  rw [Graph.membersOf, hmembers]
  exact .nil

/-- The class `A` keeps its name, for `B` has the one it would get. Its nested class `A$I` is
`B$I` all the same. -/
theorem className_nested_of_ofGraph_taking : ∃ r warnings,
    ofGraph (.ofShapes emptyShapes) taking { ignoreConflicts := true } = .ok (r, warnings) ∧
      r.keptClasses.contains "A$I" = false ∧ r.className "A" = "A" ∧ r.className "A$I" = "B$I" := by
  obtain ⟨⟨r, warnings⟩, h⟩ := isOk_ofGraph_taking
  have hgraph : r.graph = .ofShapes emptyShapes := (retreats_of_ofGraph h).graph
  have hmappings : r.mappings = taking := (retreats_of_ofGraph h).mappings
  obtain ⟨htakingA, htakingB⟩ : taking.className "A" = "B" ∧ taking.className "B" = "B" := by
    simp [Mapping.Renames.className, Mapping.Renames.mapClass, taking, Nested.rename,
      Nested.answer, Nested.renameOuter]
  have hrow : taking.classes["A" ++ "$" ++ "I"]? = none := by simp [taking]
  have hkept : r.keptClasses.contains ("A" ++ "$" ++ "I") = false := by
    refine Bool.eq_false_iff.2 fun hkept => ?_
    obtain ⟨c, hc, hname⟩ := (kept_of_ofGraph h _ hkept).listed
    rw [hgraph] at hc
    have hother : ∀ shape ∈ emptyShapes, shape.name ≠ "A" ++ "$" ++ "I" := by decide
    exact hother c (List.mem_mergeSort.1 hc) hname
  -- `B` keeps its name, and two classes do not end up with one name, so `A` was taken back.
  have hA : r.className "A" = "A" := by
    have hdistinct : r.className "A" ≠ r.className "B" :=
      (Distinct.of_ofGraph h).className_ne hgraph (a := emptyShape "A") (b := emptyShape "B")
        (by decide) (by decide) rfl rfl (by decide)
    have hB : r.className "B" = "B" := by
      rw [className_eq, hmappings, htakingB, ite_self]
    rw [hB, className_eq, hmappings, htakingA] at hdistinct
    rw [className_eq, if_pos]
    by_contra hnot
    exact hdistinct (if_neg hnot)
  obtain ⟨hnested, -, -⟩ := className_nested_of_ofGraph h (by decide) hrow hkept
  rw [htakingA] at hnested
  exact ⟨r, warnings, h, hkept, hA, hnested⟩

end Decisions

end Relabel
