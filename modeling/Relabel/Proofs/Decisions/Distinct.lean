import Relabel.Proofs.Decisions.Clashes

/-!
# No two of one name

Where decisions are made, the loops that settle clashes have ended with none left. What is left of
clashes is looked for among all classes, and among all members of each input, so no two of them have
one name.

## Main results

- `Decisions.Distinct.of_ofGraph`: where decisions are made, names are distinct.
- `Decisions.distinct_of_ofGraph`: both loops end, and afterwards names are distinct.
-/

namespace Relabel

/-! ### Decisions on a graph -/

namespace Decisions

/-- Names that tell classes apart, and in each input the fields and the methods. -/
structure Distinct (r : Decisions) : Prop where
  /-- No two inputs or classes of the classpath have one name. -/
  classes : ∀ a b, a < r.graph.size → b < r.graph.size → a ≠ b →
    ((r.graph.classAt a).origin = .input ∨ (r.graph.classAt a).origin = .classpath) →
    ((r.graph.classAt b).origin = .input ∨ (r.graph.classAt b).origin = .classpath) →
    r.className (r.graph.classAt a).name ≠ r.className (r.graph.classAt b).name
  /-- No two members of one kind in an input have one name and descriptor. -/
  members : ∀ a b, r.graph.Declares a → r.graph.Declares b → a ≠ b → a.owner = b.owner →
    (r.graph.classAt a.owner).origin = .input →
    (r.graph.memberAt a).kind = (r.graph.memberAt b).kind → r.memberAfter a ≠ r.memberAfter b

variable {r : Decisions}

/-- Without a clash two classes with a say have different names. -/
theorem className_ne_of_classClash? (h : Draft.classClash? r = none) {a b : ClassPlace}
    (hab : a < b) (hb : b < r.graph.size) (hsay : Draft.hasSay (r.graph.classAt a))
    (hsay' : Draft.hasSay (r.graph.classAt b)) :
    r.className (r.graph.classAt a).name ≠ r.className (r.graph.classAt b).name := by
  have hb' : b < r.graph.classes.toList.length := hb
  have ha' : a < r.graph.classes.toList.length := Nat.lt_trans hab hb
  have hclassAt : ∀ c (hc : c < r.graph.classes.toList.length),
      r.graph.classAt c = r.graph.classes.toList[c] := by
    intro c hc
    rw [Array.length_toList] at hc
    simp [Graph.classAt, Array.getD_eq_getD_getElem?, hc]
  rw [hclassAt a ha'] at hsay ⊢
  rw [hclassAt b hb'] at hsay' ⊢
  exact List.pairwise_iff_getElem.1 (Draft.classClash?_eq_none_iff.1 h) a b ha' hb' hab hsay hsay'

/-- Without a clash names are distinct. -/
theorem distinct_of_no_clash (hclasses : Draft.classClash? r = none)
    (hmembers : ∀ c < r.graph.size, (r.graph.classAt c).isInput → Draft.clashesIn r c = []) :
    r.Distinct where
  classes a b ha hb hne hsay hsay' := by
    have hsay : Draft.hasSay (r.graph.classAt a) := by simpa [Draft.hasSay] using hsay
    have hsay' : Draft.hasSay (r.graph.classAt b) := by simpa [Draft.hasSay] using hsay'
    rcases Nat.lt_or_gt_of_ne hne with hlt | hlt
    · exact className_ne_of_classClash? hclasses hlt hb hsay hsay'
    · exact (className_ne_of_classClash? hclasses hlt ha hsay' hsay).symm
  members a b ha hb hne howner hinput hkind := by
    have hpairwise := Draft.clashesIn_eq_nil_iff.1
      (hmembers a.owner ha.owner_lt (decide_eq_true hinput))
    have hsymm : Std.Symm fun a b => Draft.targetKey r a ≠ Draft.targetKey r b :=
      ⟨fun _ _ => Ne.symm⟩
    have hkeys : Draft.targetKey r a ≠ Draft.targetKey r b :=
      hpairwise.forall (Graph.mem_membersOf.2 ⟨rfl, ha⟩) (Graph.mem_membersOf.2 ⟨howner.symm, hb⟩)
        hne
    -- The kinds agree, so the difference lies in the rest of the key.
    intro hafter
    refine hkeys ?_
    rw [Draft.targetKey, Draft.targetKey, MemberShape.isMethod, MemberShape.isMethod, hkind, hafter]

/-- Where decisions are made no clash is left. -/
theorem Distinct.of_ofGraph {graph : Graph} {mappings : Mapping.Renames} {options : Options}
    {warnings : List Warning} (h : ofGraph graph mappings options = .ok (r, warnings)) :
    r.Distinct := by
  obtain ⟨named, classesSettled, settled, -, hclasses, hmembers, _, _, rfl⟩ := ofGraph_ok h
  obtain ⟨-, hproblems⟩ := Draft.endsAt_settleClasses named options
  obtain ⟨hends, hproblems'⟩ := Draft.endsAt_settleMembers classesSettled options
  rw [hclasses] at hproblems
  rw [hmembers] at hends hproblems'
  dsimp only at hproblems hends hproblems'
  -- The loop over members leaves the names of classes alone.
  obtain ⟨hretreats, hmapClass⟩ := Draft.retreats_of_memberPasses hends
  have hnoClash : Draft.classClash? settled.decisions = none := by
    have hnone : Draft.classClash? classesSettled.decisions = none := by
      unfold Draft.classProblems at hproblems
      split at hproblems
      · assumption
      · cases hproblems
    rw [Draft.classClash?_eq_none_iff] at hnone ⊢
    simpa only [className, hmapClass, hretreats.graph] using hnone
  have hnoClash' := Draft.memberClashes_eq_nil_iff.1 (List.map_eq_nil_iff.1 hproblems'.symm)
  obtain ⟨hdistinct, hdistinct'⟩ := distinct_of_no_clash hnoClash hnoClash'
  exact ⟨hdistinct, hdistinct'⟩

/-- Two inputs with different names have different names afterwards. -/
theorem Distinct.className_ne {r : Decisions} {shapes : List ClassShape}
    (h : r.Distinct) (hgraph : r.graph = .ofShapes shapes) {a b : ClassShape} (ha : a ∈ shapes)
    (hb : b ∈ shapes) (hinput : a.origin = .input) (hinput' : b.origin = .input)
    (hne : a.name ≠ b.name) : r.className a.name ≠ r.className b.name := by
  obtain ⟨i, hi, rfl⟩ := Graph.exists_classAt ha
  obtain ⟨j, hj, rfl⟩ := Graph.exists_classAt hb
  rw [← hgraph] at hi hj hinput hinput' hne ⊢
  exact h.classes i j hi hj (fun heq => hne (heq ▸ rfl)) (.inl hinput) (.inl hinput')

/-! ### A method that gets the name of an inherited one -/

/-- A public method without parameters. -/
def plainMethod (name : String) : MemberShape :=
  { kind := .method, name, desc := "()V", access := .onlyPublic }

/-- The class `A` with `run` and `stop`. -/
def parentShape : ClassShape :=
  { name := "A", access := .onlyPublic, origin := .input
    members := #[plainMethod "run", plainMethod "stop"] }

/-- A subclass that overrides `run`, and inherits `stop`. -/
def childShape : ClassShape :=
  { name := "B", access := .onlyPublic, superName := some "A", origin := .input
    members := #[plainMethod "run", plainMethod "halt"] }

/-- The mappings give `run` a new name, and `halt` the name of the inherited method. -/
def capturing : Mapping.Renames where
  methods := (({} : Std.HashMap MemberKey String).insert ⟨"A", "run", "()V"⟩ "go").insert
    ⟨"B", "halt", "()V"⟩ "stop"

/-- The graph of the two classes. -/
def kinship : Graph where
  classes := #[parentShape, childShape]
  index := Graph.indexOf #[parentShape, childShape]
  ancestors := #[#[], #[0]]
  subclasses := Graph.collectSubclasses #[parentShape, childShape]
    (Graph.indexOf #[parentShape, childShape])
  offsets := #[0, 2, 4]

/-- The graph of the two classes, written out. -/
theorem ofShapes_kinship : Graph.ofShapes [parentShape, childShape] = kinship :=
  Graph.ofShapes_pair (by decide) rfl rfl rfl

/-- The two methods called `run` are linked, the others stand alone. -/
def kinshipLinkage : Linkage where
  groups := #[{ members := #[⟨0, 0⟩, ⟨1, 0⟩] }, { members := #[⟨0, 1⟩] }, { members := #[⟨1, 1⟩] }]
  groupOf := #[some 0, some 1, some 0, some 2]

/-- Only the two methods `run` are joined. -/
private theorem edges_kinship : Linkage.edges kinship {} = [(2, 0)] := by
  have hparent : Linkage.keyed kinship {} ((kinship.selfAndAncestors 0).flatMap kinship.membersOf) =
      [(("run", "()V"), 0), (("stop", "()V"), 1)] := by decide
  have hchild : Linkage.keyed kinship {} ((kinship.selfAndAncestors 1).flatMap kinship.membersOf) =
      [(("run", "()V"), 2), (("halt", "()V"), 3), (("run", "()V"), 0), (("stop", "()V"), 1)] := by
    decide
  have hplaces : kinship.places = [0, 1] := rfl
  simp only [Linkage.edges, hplaces, List.flatMap_cons, List.flatMap_nil, Linkage.overrideEdges,
    hparent, hchild, Linkage.edgesByKey, List.foldl_cons, List.foldl_nil, Linkage.noteKey,
    Linkage.bridgeEdges]
  simp [Std.HashMap.getElem_insert]

/-- The groups are those two together, and the other two alone. -/
theorem linkage_kinship : Linkage.ofGraph kinship {} = kinshipLinkage := by
  have hmembers : Linkage.groupedMembers kinship = [⟨0, 0⟩, ⟨0, 1⟩, ⟨1, 0⟩, ⟨1, 1⟩] := by decide
  have hsets : (UnionFind.singletons kinship.memberTotal).unionAll [(2, 0)] =
      { parent := #[2, 1, 2, 3], rank := #[0, 0, 1, 0] } := rfl
  rw [Linkage.ofGraph, edges_kinship, hsets, hmembers]
  simp only [List.foldl_cons, List.foldl_nil, Linkage.place, Std.HashMap.getElem?_insert,
    Std.HashMap.getElem?_empty]
  rfl

/-- The decisions on the two classes: `run` becomes `go` in both, and `halt` becomes `stop`. -/
def kinshipDecisions : Decisions where
  graph := kinship
  linkage := kinshipLinkage
  mappings := capturing
  groupNames := #[some "go", none, some "stop"]
  fieldNames := #[none, none, none, none]

private theorem takeNames_kinship :
    (Draft.start kinship capturing {}).takeNames {} = ([], { decisions := kinshipDecisions }) := by
  -- The rows name `run` of the parent and `halt` of the child.
  obtain ⟨hrun, hstop, hrun', hhalt⟩ :
      capturing.methodName (kinship.keyOf ⟨0, 0⟩) = some "go" ∧
      capturing.methodName (kinship.keyOf ⟨0, 1⟩) = none ∧
      capturing.methodName (kinship.keyOf ⟨1, 0⟩) = none ∧
      capturing.methodName (kinship.keyOf ⟨1, 1⟩) = some "stop" := by
    simp [capturing, Mapping.Renames.methodName, Std.HashMap.getElem_insert, Graph.keyOf, kinship,
      Graph.memberAt, Graph.classAt, parentShape, childShape, plainMethod]
  let unnamed : Decisions := { kinshipDecisions with groupNames := #[none, none, none] }
  have hstart : Draft.start kinship capturing {} = { decisions := unnamed } := by
    simp only [Draft.start, linkage_kinship]
    rfl
  have hmapped : ∀ group, Draft.mappedMembers unnamed group = group.members.toList.filterMap
      fun id => (capturing.methodName (kinship.keyOf id)).map (id, ·) := fun _ => rfl
  -- The two `run` become `go`, `stop` stays, and `halt` becomes `stop`.
  have hshared : Draft.chooseName unnamed { members := #[⟨0, 0⟩, ⟨1, 0⟩] } = (some "go", none) := by
    simp only [Draft.chooseName, hmapped, List.filterMap_cons, List.filterMap_nil, hrun, hrun',
      Option.map_some, Option.map_none]
    rfl
  have hkept : Draft.chooseName unnamed { members := #[⟨0, 1⟩] } = (none, none) := by
    simp only [Draft.chooseName, hmapped, List.filterMap_cons, List.filterMap_nil, hstop,
      Option.map_none]
  have hown : Draft.chooseName unnamed { members := #[⟨1, 1⟩] } = (some "stop", none) := by
    simp only [Draft.chooseName, hmapped, List.filterMap_cons, List.filterMap_nil, hhalt,
      Option.map_some]
    rfl
  have hgroups : unnamed.linkage.groups =
      #[{ members := #[⟨0, 0⟩, ⟨1, 0⟩] }, { members := #[⟨0, 1⟩] }, { members := #[⟨1, 1⟩] }] := rfl
  have hnames : Draft.chosenNames unnamed = #[some "go", none, some "stop"] := by
    rw [Draft.chosenNames, hgroups]
    simp only [List.map_toArray, List.map_cons, List.map_nil, hshared, hkept, hown]
  have hconflicts : Draft.nameConflicts unnamed = [] := by
    rw [Draft.nameConflicts, hgroups]
    simp only [List.filterMap_cons, List.filterMap_nil, hshared, hkept, hown]
  have hfields : Draft.chosenFields unnamed = #[none, none, none, none] := rfl
  rw [hstart, Draft.takeNames, hnames, hfields, hconflicts]
  rfl

/-- The decisions are made without a warning. -/
theorem ofGraph_kinship :
    ofGraph (.ofShapes [parentShape, childShape]) capturing {} = .ok (kinshipDecisions, []) := by
  have hmapClass : kinshipDecisions.mapClass "A" = none ∧ kinshipDecisions.mapClass "B" = none := by
    simp [mapClass, kinshipDecisions, Mapping.Renames.mapClass, Nested.rename, Nested.renameOuter,
      capturing]
  have hclasses : Draft.classClash? kinshipDecisions = none := by
    have hshapes : kinshipDecisions.graph.classes = #[parentShape, childShape] := rfl
    simp [Draft.classClash?, Draft.classClash?.search, hshapes, parentShape, childShape, className,
      hmapClass]
  have hmembers : Draft.memberClashes { decisions := kinshipDecisions } = [] := by
    refine Draft.memberClashes_eq_nil_iff.2 fun c hc _ => Draft.clashesIn_eq_nil_iff.2 ?_
    -- In either class one method is called `go` and the other `stop`.
    have hdiffer : ∀ {a b}, (kinshipDecisions.memberAfter a).1 = "go" →
        (kinshipDecisions.memberAfter b).1 = "stop" →
        Draft.targetKey kinshipDecisions a ≠ Draft.targetKey kinshipDecisions b := by
      intro a b ha hb hkey
      have hnames : (kinshipDecisions.memberAfter a).1 = (kinshipDecisions.memberAfter b).1 :=
        congrArg (·.2.1) hkey
      rw [ha, hb] at hnames
      exact absurd hnames (by decide)
    rcases c with _ | _ | c
    · exact List.pairwise_pair.2 (hdiffer rfl rfl)
    · exact List.pairwise_pair.2 (hdiffer rfl rfl)
    · exact absurd hc (Nat.not_lt.2 (Nat.le_add_left 2 c))
  rw [ofShapes_kinship]
  simp only [ofGraph, takeNames_kinship, Draft.settleClasses, Draft.settleClassesFrom, hclasses,
    Draft.settleMembers, Draft.settleMembersFrom, hmembers]
  rfl

/-! ### The loops and what they leave -/

/-- Both loops that settle clashes end, from whatever draft, and where decisions are made, names are
distinct. -/
theorem distinct_of_ofGraph (graph : Graph) (mappings : Mapping.Renames) (options : Options) :
    (∀ d : Draft, EndsAt (Draft.classPass options) d (d.settleClasses options).2) ∧
      (∀ d : Draft, EndsAt (Draft.memberPass options) d (d.settleMembers options).2) ∧
      ∀ r warnings, ofGraph graph mappings options = .ok (r, warnings) →
        r.graph = graph ∧ r.Distinct :=
  ⟨fun d => (Draft.endsAt_settleClasses d options).1,
    fun d => (Draft.endsAt_settleMembers d options).1,
    fun _ _ h => ⟨(retreats_of_ofGraph h).graph, .of_ofGraph h⟩⟩

/-- The names of the two classes stay apart, and so do the methods within each: of `B`, `run` is now
`go` and `halt` is `stop`. -/
theorem distinct_of_ofGraph_kinship :
    ofGraph (.ofShapes [parentShape, childShape]) capturing {} = .ok (kinshipDecisions, []) ∧
      kinshipDecisions.Distinct :=
  ⟨ofGraph_kinship, ((distinct_of_ofGraph _ _ _).2.2 _ _ ofGraph_kinship).2⟩

end Decisions

end Relabel
