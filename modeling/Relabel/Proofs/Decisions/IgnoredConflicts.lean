import Relabel.Proofs.Decisions.Distinct
import Relabel.Proofs.Decisions.Propagation
import Relabel.Proofs.Mapping.NestedNames
import Relabel.Proofs.Mapping.Tokens

/-!
# Where conflicts are ignored

Of two classes with one name afterwards, one at least has a new name, and gives way. So does one of
two members, unless both keep their names. Then they are told apart by their descriptors, and it
takes new names of classes to make these one. No class is asked to give way for that, so such
members are a conflict also where conflicts are ignored.

## Main results

- `Draft.classClash?_eq_some`, `Draft.mem_memberClashes`: what a clash is.
- `Draft.classClash?_eq_none`: no clash of classes is left.
- `Draft.merged_of_memberClashes`: which clashes of members are left.
- `Decisions.Merged.exists_unknown`: what it takes for members to be merged.
- `Decisions.isOk_ofGraph_iff_not_merged`: when decisions are made.
-/

namespace Relabel

/-- Classes have different names, and in each class no two members of one kind have one name and
descriptor. -/
structure Graph.Unambiguous (g : Graph) : Prop where
  classes : g.classes.toList.Pairwise fun a b => a.name ≠ b.name
  members : ∀ a b, g.Declares a → g.Declares b → a ≠ b → a.owner = b.owner →
    (g.memberAt a).kind = (g.memberAt b).kind → (g.memberAt a).name = (g.memberAt b).name →
    (g.memberAt a).desc ≠ (g.memberAt b).desc

/-- The mappings give no class a name with a `;`, which would end it in a descriptor. -/
def Mapping.Renames.Clean (mappings : Mapping.Renames) : Prop :=
  ∀ name new : String, mappings.classes[name]? = some new → ';' ∉ new.toList

/-- A class with this name has a say in names. -/
def Graph.Knows (g : Graph) (name : String) : Prop :=
  ∃ c ∈ g.classes.toList, Draft.hasSay c ∧ c.name = name

/-- Two members of an input with one name, and with descriptors that differ until classes get their
new names. Neither member has a new name that could be taken back. -/
structure Decisions.Merged (r : Decisions) (a b : MemberPlace) : Prop where
  first : r.graph.Declares a
  second : r.graph.Declares b
  owner_eq : a.owner = b.owner
  input : (r.graph.classAt a.owner).isInput
  kind_eq : (r.graph.memberAt a).kind = (r.graph.memberAt b).kind
  name_eq : (r.graph.memberAt a).name = (r.graph.memberAt b).name
  desc_ne : (r.graph.memberAt a).desc ≠ (r.graph.memberAt b).desc
  desc_eq : Descriptor.rename r.mapClass (r.graph.memberAt a).desc =
    Descriptor.rename r.mapClass (r.graph.memberAt b).desc
  first_keeps : r.newName a = none
  second_keeps : r.newName b = none

namespace Draft

variable {r : Decisions} {d : Draft} {options : Options}

/-! ### Clashes of classes -/

/-- Two classes clash that get one name, one before the other. -/
theorem classClash?_eq_some {first second target : String}
    (h : classClash? r = some (first, second, target)) :
    ∃ c c', [c, c'].Sublist r.graph.classes.toList ∧ c.name = first ∧ c'.name = second ∧
      r.className first = target ∧ r.className second = target := by
  obtain ⟨before, c', after, c, hsplit, -, hc, htarget, htarget', rfl, rfl⟩ :=
    exists_of_classClash? h
  have hsub : [c, c'].Sublist (before ++ c' :: after) :=
    (List.singleton_sublist.2 hc).append (List.singleton_sublist.2 List.mem_cons_self)
  rw [← hsplit] at hsub
  exact ⟨c, c', hsub.trans List.filter_sublist, rfl, rfl, htarget, htarget'⟩

/-- Where conflicts are ignored no clash of classes is left: two classes that keep their names do
not clash. -/
theorem classClash?_eq_none (hignore : options.ignoreConflicts = true)
    (hnames : d.decisions.graph.classes.toList.Pairwise fun a b => a.name ≠ b.name)
    (h : classPass options d = none) : classClash? d.decisions = none := by
  cases hclash : classClash? d.decisions with
  | none => rfl
  | some clash =>
    obtain ⟨first, second, target⟩ := clash
    obtain ⟨c, c', hsub, rfl, rfl, htarget, htarget'⟩ := classClash?_eq_some hclash
    -- Had either of the two a new name, the pass would have taken it back.
    have hkeeps : d.decisions.mapClass c.name = none ∧ d.decisions.mapClass c'.name = none := by
      simp only [classPass, hclash, hignore, Bool.true_and] at h
      split at h
      · cases h
      · next hsecond =>
        split at h
        · cases h
        · next hfirst => exact ⟨by simpa using hfirst, by simpa using hsecond⟩
    have hne : c.name ≠ c'.name := by simpa using hnames.sublist hsub
    rw [Decisions.className, hkeeps.1] at htarget
    rw [Decisions.className, hkeeps.2] at htarget'
    exact absurd (htarget.trans htarget'.symm) hne

/-! ### Clashes of members -/

/-- Two members of an input clash that have one key, one before the other. -/
theorem mem_memberClashes {c : NameClash} (h : c ∈ d.memberClashes) :
    ∃ owner, (d.decisions.graph.classAt owner).isInput ∧
      [c.first, c.second].Sublist (d.decisions.graph.membersOf owner) ∧
      targetKey d.decisions c.first = targetKey d.decisions c.second := by
  obtain ⟨owner, howner, hc⟩ := List.mem_flatMap.1 h
  obtain ⟨-, hinput⟩ := List.mem_filter.1 howner
  obtain ⟨hsub, hkey⟩ := mem_clashesIn hc
  exact ⟨owner, hinput, hsub, hkey⟩

/-- Where conflicts are ignored, both members of a clash that is left keep their names. -/
theorem newName_eq_none (hignore : options.ignoreConflicts = true)
    (h : memberPass options d = none) {c : NameClash} (hc : c ∈ d.memberClashes) :
    d.decisions.newName c.first = none ∧ d.decisions.newName c.second = none := by
  have hgives : d.givesWay? options c = none := by
    rw [memberPass, Option.map_eq_none_iff, List.findSome?_eq_none_iff] at h
    exact Option.map_eq_none_iff.1 (h c hc)
  cases hfirst : d.decisions.newName c.first <;> cases hsecond : d.decisions.newName c.second <;>
    simp_all [givesWay?, hasNewName]

/-- The clashes of members that are left are between members that the new names of classes have
made one. -/
theorem merged_of_memberClashes (hignore : options.ignoreConflicts = true)
    (hgraph : d.decisions.graph.Unambiguous) (h : memberPass options d = none) {c : NameClash}
    (hc : c ∈ d.memberClashes) : d.decisions.Merged c.first c.second := by
  obtain ⟨owner, hinput, hsub, hkey⟩ := mem_memberClashes hc
  obtain ⟨hfirst, hsecond⟩ := newName_eq_none hignore h hc
  obtain ⟨howner, hdeclares⟩ := Graph.mem_membersOf.1 (hsub.subset List.mem_cons_self)
  obtain ⟨howner', hdeclares'⟩ :=
    Graph.mem_membersOf.1 (hsub.subset (List.mem_cons_of_mem _ List.mem_cons_self))
  have hne : c.first ≠ c.second :=
    List.pairwise_pair.1 ((d.decisions.graph.nodup_membersOf owner).sublist hsub)
  -- Members that keep their names agree in all that makes up their keys.
  simp only [targetKey, Decisions.memberAfter, hfirst, hsecond, Option.getD_none,
    Prod.mk.injEq] at hkey
  obtain ⟨hkind, hname, hdesc⟩ := hkey
  have hkind : (d.decisions.graph.memberAt c.first).kind =
      (d.decisions.graph.memberAt c.second).kind := by
    rw [Bool.eq_iff_iff, MemberShape.isMethod_iff, MemberShape.isMethod_iff] at hkind
    generalize (d.decisions.graph.memberAt c.first).kind = kind at hkind ⊢
    generalize (d.decisions.graph.memberAt c.second).kind = kind' at hkind ⊢
    cases kind <;> cases kind' <;> simp_all
  exact {
    first := hdeclares
    second := hdeclares'
    owner_eq := howner.trans howner'.symm
    input := howner.symm ▸ hinput
    kind_eq := hkind
    name_eq := hname
    desc_ne := hgraph.members _ _ hdeclares hdeclares' hne (howner.trans howner'.symm) hkind hname
    desc_eq := hdesc
    first_keeps := hfirst
    second_keeps := hsecond }

/-- Members that the new names of classes have made one clash. -/
theorem memberClashes_ne_nil {a b : MemberPlace} (h : d.decisions.Merged a b) :
    d.memberClashes ≠ [] := by
  intro hnil
  have hpairwise := clashesIn_eq_nil_iff.1
    (memberClashes_eq_nil_iff.1 hnil a.owner h.first.owner_lt h.input)
  have hsymm : Std.Symm fun a b => targetKey d.decisions a ≠ targetKey d.decisions b :=
    ⟨fun _ _ => Ne.symm⟩
  -- Their types differ, so they are two members.
  have hne : a ≠ b := by
    rintro rfl
    exact h.desc_ne rfl
  refine hpairwise.forall (Graph.mem_membersOf.2 ⟨rfl, h.first⟩)
    (Graph.mem_membersOf.2 ⟨h.owner_eq.symm, h.second⟩) hne ?_
  simp only [targetKey, Decisions.memberAfter, h.first_keeps, h.second_keeps, Option.getD_none,
    MemberShape.isMethod, h.kind_eq, h.name_eq, h.desc_eq]

/-! ### Where all is settled that can be -/

section Settled

variable (graph : Graph) (mappings : Mapping.Renames) (options : Options)

/-- The draft with the names from the mappings. -/
def named : Draft :=
  ((start graph mappings options).takeNames options).2

/-- The draft after all clashes of classes that can be settled are. -/
def classesSettled : Draft :=
  ((named graph mappings options).settleClasses options).2

/-- The draft after all clashes that can be settled are. -/
def settled : Draft :=
  ((classesSettled graph mappings options).settleMembers options).2

/-- Settling members leaves the names of classes alone. -/
theorem retreats_classesSettled :
    (classesSettled graph mappings options).decisions.Retreats
        (settled graph mappings options).decisions ∧
      (settled graph mappings options).decisions.mapClass =
        (classesSettled graph mappings options).decisions.mapClass :=
  retreats_of_memberPasses (endsAt_settleMembers _ options).1

/-- Settling only takes names back. -/
theorem retreats_settled : (named graph mappings options).decisions.Retreats
    (settled graph mappings options).decisions :=
  (retreats_of_classPasses (endsAt_settleClasses _ options).1).trans
    (retreats_classesSettled ..).1

theorem graph_settled : (settled graph mappings options).decisions.graph = graph := by
  rw [(retreats_settled ..).graph, named, decisions_takeNames]
  rfl

theorem mappings_settled : (settled graph mappings options).decisions.mappings = mappings := by
  rw [(retreats_settled ..).mappings, named, decisions_takeNames]
  rfl

/-- A settled draft has no member to take back. -/
theorem memberPass_settled : memberPass options (settled graph mappings options) = none :=
  (endsAt_settleMembers _ options).1.next_eq_none

variable {graph options}

/-- Where conflicts are ignored no clash of classes is left, neither before members are settled nor
after. -/
theorem classClash?_settled (hignore : options.ignoreConflicts = true)
    (hnames : graph.classes.toList.Pairwise fun a b => a.name ≠ b.name) :
    classClash? (classesSettled graph mappings options).decisions = none ∧
      classClash? (settled graph mappings options).decisions = none := by
  obtain ⟨hretreats, hmapClass⟩ := retreats_classesSettled graph mappings options
  have hnone : classClash? (classesSettled graph mappings options).decisions = none := by
    refine classClash?_eq_none hignore ?_ (endsAt_settleClasses _ options).1.next_eq_none
    rwa [← hretreats.graph, graph_settled]
  refine ⟨hnone, ?_⟩
  rw [classClash?_eq_none_iff] at hnone ⊢
  simpa only [Decisions.className, hmapClass, hretreats.graph] using hnone

variable {mappings}

/-- Where the mappings name no method, none has a new name. -/
theorem newName_settled (hmethods : ∀ key, mappings.methodName key = none) (id : MemberPlace)
    (hmethod : (graph.memberAt id).isMethod) :
    (settled graph mappings options).decisions.newName id = none := by
  cases hname : (settled graph mappings options).decisions.newName id with
  | none => rfl
  | some x =>
    rw [Decisions.newName, graph_settled, if_pos hmethod] at hname
    obtain ⟨k, -, hk⟩ := Option.bind_eq_some_iff.1 hname
    -- A name that is left was chosen, and so comes from a row.
    have hchosen := (retreats_settled ..).groupNames k x hk
    rw [named, decisions_takeNames] at hchosen
    obtain ⟨source, -, hmapped⟩ := exists_of_chosenNames hchosen
    rw [start, hmethods] at hmapped
    cases hmapped

end Settled

end Draft

/-! ### Decisions on a graph -/

namespace Decisions

variable {graph : Graph} {mappings : Mapping.Renames} {options : Options}

/-- Decisions are made where no step has a problem, and only there. -/
theorem isOk_ofGraph_iff : (∃ result, ofGraph graph mappings options = .ok result) ↔
    ((Draft.start graph mappings options).takeNames options).1 = [] ∧
      ((Draft.named graph mappings options).settleClasses options).1 = [] ∧
      ((Draft.classesSettled graph mappings options).settleMembers options).1 = [] := by
  rw [← and_assoc, ← List.append_eq_nil_iff, ← List.append_eq_nil_iff]
  simp only [ofGraph]
  split
  · next hnil => exact iff_of_true ⟨_, rfl⟩ hnil
  · next hne => exact iff_of_false (by rintro ⟨_, ⟨⟩⟩) hne

/-- Where conflicts are ignored, only clashes of members can be in the way of decisions. -/
theorem isOk_ofGraph_iff_memberClashes (hignore : options.ignoreConflicts = true)
    (hnames : graph.classes.toList.Pairwise fun a b => a.name ≠ b.name) :
    (∃ result, ofGraph graph mappings options = .ok result) ↔
      (Draft.settled graph mappings options).memberClashes = [] := by
  -- Of the three steps the first two have no problem where conflicts are ignored.
  have hconflicts : ((Draft.start graph mappings options).takeNames options).1 = [] := by
    simp only [Draft.takeNames, hignore, if_true]
  have hclasses : ((Draft.named graph mappings options).settleClasses options).1 = [] := by
    obtain ⟨hnone, -⟩ := Draft.classClash?_settled mappings hignore hnames
    rw [(Draft.endsAt_settleClasses _ options).2, ← Draft.classesSettled, Draft.classProblems,
      hnone]
  rw [isOk_ofGraph_iff, and_iff_right hconflicts, and_iff_right hclasses,
    (Draft.endsAt_settleMembers _ options).2, List.map_eq_nil_iff, Draft.settled]

/-- Where the mappings give no name with a `;`, nested classes do not get one either. -/
theorem not_mem_of_mapClass {r : Decisions} {name new : String} (hclean : r.mappings.Clean)
    (hname : ';' ∉ name.toList) (h : r.mapClass name = some new) : ';' ∉ new.toList := by
  have hmapped : r.mappings.mapClass name = some new := by
    unfold mapClass at h
    split at h
    · cases h
    · exact (Option.filter_eq_some_iff.1 h).1
  obtain ⟨outer, inner, given, rfl, hgiven, -, rfl⟩ :=
    Mapping.Renames.exists_of_mapClass hmapped
  rw [String.toList_append, List.mem_append, not_or] at hname ⊢
  exact ⟨hclean _ _ hgiven, hname.2⟩

/-- The descriptors of merged members hold two classes that get one name. One of them has no say in
names, for the search for clashes looks at all that have. -/
theorem Merged.exists_unknown {r : Decisions} {a b : MemberPlace} (h : r.Merged a b)
    (hclash : Draft.classClash? r = none) (hclean : r.mappings.Clean) :
    ∃ x ∈ Descriptor.tokens (r.graph.memberAt a).desc,
      ∃ y ∈ Descriptor.tokens (r.graph.memberAt b).desc,
        x ≠ y ∧ r.className x = r.className y ∧ ¬ (r.graph.Knows x ∧ r.graph.Knows y) := by
  have hclean := Descriptor.ClassMap.clean_segments fun _ _ => not_mem_of_mapClass hclean
  obtain ⟨x, hx, y, hy, hne, hsame⟩ :=
    Descriptor.exists_of_rename_eq (hclean _) (hclean _) h.desc_ne h.desc_eq
  refine ⟨x, hx, y, hy, hne, hsame, ?_⟩
  rintro ⟨⟨c, hc, hsay, rfl⟩, ⟨c', hc', hsay', rfl⟩⟩
  -- Both would have been in the search for clashes.
  have hsymm : Std.Symm fun a b => Draft.hasSay a → Draft.hasSay b →
      r.className a.name ≠ r.className b.name := ⟨fun _ _ h hsay hsay' => (h hsay' hsay).symm⟩
  have hne : c ≠ c' := fun heq => hne (congrArg _ heq)
  exact (Draft.classClash?_eq_none_iff.1 hclash).forall hc hc' hne hsay hsay' hsame

/-- Where conflicts are ignored, decisions on an unambiguous graph are made unless members are
merged. If no new name holds a `;`, that takes a class in their descriptors that has no say in
names. -/
theorem isOk_ofGraph_iff_not_merged (hignore : options.ignoreConflicts = true)
    (hgraph : graph.Unambiguous) :
    ((∃ result, ofGraph graph mappings options = .ok result) ↔
      ∀ a b, ¬ (Draft.settled graph mappings options).decisions.Merged a b) ∧
    (mappings.Clean →
      ∀ a b, (Draft.settled graph mappings options).decisions.Merged a b →
        ∃ x ∈ Descriptor.tokens (graph.memberAt a).desc,
          ∃ y ∈ Descriptor.tokens (graph.memberAt b).desc, x ≠ y ∧
            (Draft.settled graph mappings options).decisions.className x =
              (Draft.settled graph mappings options).decisions.className y ∧
            ¬ (graph.Knows x ∧ graph.Knows y)) := by
  obtain ⟨-, hclash⟩ := Draft.classClash?_settled mappings hignore hgraph.classes
  rw [isOk_ofGraph_iff_memberClashes hignore hgraph.classes]
  refine ⟨⟨?_, ?_⟩, ?_⟩
  · exact fun hnil a b hmerged => Draft.memberClashes_ne_nil hmerged hnil
  · intro hnone
    -- A clash that is left is one of merged members.
    refine List.eq_nil_iff_forall_not_mem.2 fun c hc => hnone c.first c.second ?_
    exact Draft.merged_of_memberClashes hignore ((Draft.graph_settled ..).symm ▸ hgraph)
      (Draft.memberPass_settled ..) hc
  · intro hclean a b hmerged
    have hunknown := hmerged.exists_unknown hclash (by rwa [Draft.mappings_settled])
    rwa [Draft.graph_settled] at hunknown

/-! ### Two overloads -/

/-- A method with the name `f`. -/
def overload (desc : String) : MemberShape :=
  { plainMethod "f" with desc }

/-- A class with two methods that differ in the class of their parameter. -/
def overloadsShape : ClassShape :=
  { name := "C", access := .onlyPublic, origin := .input
    members := #[overload "(LX;)V", overload "(LY;)V"] }

/-- The graph of that class alone. -/
def overloads : Graph :=
  .ofShapes [overloadsShape]

/-- The mappings give a class that is only named in descriptors the name of another. -/
def merging : Mapping.Renames where
  classes := .ofList [("X", "Y")]

theorem classes_overloads : overloads.classes = #[overloadsShape] := by
  simp [overloads, Graph.ofShapes]

theorem classAt_overloads : overloads.classAt 0 = overloadsShape := by
  simp [Graph.classAt, classes_overloads]

theorem memberAt_overloads : overloads.memberAt ⟨0, 0⟩ = overload "(LX;)V" ∧
    overloads.memberAt ⟨0, 1⟩ = overload "(LY;)V" := by
  simp [Graph.memberAt, classAt_overloads, overloadsShape]

/-- Only the two overloads are declared. -/
theorem declares_overloads {id : MemberPlace} :
    overloads.Declares id ↔ id = ⟨0, 0⟩ ∨ id = ⟨0, 1⟩ := by
  constructor
  -- There is one class, and it has two members.
  · intro h
    have howner : id.owner < overloads.classes.size := h.owner_lt
    obtain ⟨owner, index⟩ := id
    obtain rfl : owner = 0 := by simpa [classes_overloads] using howner
    have hindex : index < 2 := by simpa [Graph.Declares, classAt_overloads, overloadsShape] using h
    rcases index with _ | _ | index
    · exact .inl rfl
    · exact .inr rfl
    · omega
  · rintro (rfl | rfl) <;> simp [Graph.Declares, classAt_overloads, overloadsShape]

/-- The two overloads differ in their types. -/
theorem unambiguous_overloads : overloads.Unambiguous where
  classes := by simp [classes_overloads]
  members a b ha hb hne _ _ _ := by
    obtain ⟨hfirst, hsecond⟩ := memberAt_overloads
    rcases declares_overloads.1 ha with rfl | rfl <;> rcases declares_overloads.1 hb with rfl | rfl
    · exact absurd rfl hne
    · simp [hfirst, hsecond, overload]
    · simp [hfirst, hsecond, overload]
    · exact absurd rfl hne

/-- The rows are sound. -/
theorem clean_merging : merging.Clean := by
  intro name new h
  have hnew : new = "Y" := by
    simp only [merging, Std.HashMap.ofList_singleton, Std.HashMap.getElem?_insert,
      Std.HashMap.getElem?_empty, Option.ite_none_right_eq_some, Option.some.injEq] at h
    exact h.2.symm
  subst hnew
  decide

/-- The one class clashes with none, so all classes get the names that the mappings give. -/
theorem mapClass_settled_overloads (options : Options) :
    (Draft.settled overloads merging options).decisions.mapClass "X" = some "Y" ∧
      (Draft.settled overloads merging options).decisions.mapClass "Y" = none := by
  have hnamed := Draft.decisions_takeNames (Draft.start overloads merging options) options
  rw [Draft.settled, Draft.classesSettled, Draft.named]
  generalize ((Draft.start overloads merging options).takeNames options).2 = named at hnamed ⊢
  -- A single class has no other to clash with.
  have hnone : Draft.classClash? named.decisions = none := by
    rw [Draft.classClash?_eq_none_iff, hnamed]
    simp [Draft.start, classes_overloads]
  have hclasses : (named.settleClasses options).2 = named := by
    simp only [Draft.settleClasses, Draft.settleClassesFrom, hnone]
  have hmapClass := (Draft.retreats_of_memberPasses (Draft.endsAt_settleMembers named options).1).2
  rw [hclasses, hmapClass, hnamed]
  simp [mapClass, Draft.start, Mapping.Renames.mapClass, merging, Nested.rename, Nested.answer,
    Nested.renameOuter]

/-- Renaming `X` to `Y` merges the two overloads. -/
theorem merged_overloads :
    (Draft.settled overloads merging options).decisions.Merged ⟨0, 0⟩ ⟨0, 1⟩ := by
  obtain ⟨hX, hY⟩ := mapClass_settled_overloads options
  obtain ⟨hfirst, hsecond⟩ := memberAt_overloads
  have hmethods : ∀ key, merging.methodName key = none := fun key => by
    simp [Mapping.Renames.methodName, merging]
  -- No row renames a method, so neither is renamed.
  have hkeeps : ∀ id, (overloads.memberAt id).isMethod →
      (Draft.settled overloads merging options).decisions.newName id = none :=
    Draft.newName_settled hmethods
  have hkeepsFirst := hkeeps ⟨0, 0⟩ (by rw [hfirst]; rfl)
  have hkeepsSecond := hkeeps ⟨0, 1⟩ (by rw [hsecond]; rfl)
  rw [← Draft.graph_settled overloads merging options] at hfirst hsecond
  refine ⟨?_, ?_, rfl, ?_, ?_, ?_, ?_, ?_, hkeepsFirst, hkeepsSecond⟩
  · rw [Draft.graph_settled]
    exact declares_overloads.2 (.inl rfl)
  · rw [Draft.graph_settled]
    exact declares_overloads.2 (.inr rfl)
  · rw [Draft.graph_settled, classAt_overloads]
    rfl
  · rw [hfirst, hsecond]
    rfl
  · rw [hfirst, hsecond]
    rfl
  · rw [hfirst, hsecond]
    decide
  -- Both types become that of a `Y`, for `X` is renamed to `Y`.
  · simp [hfirst, hsecond, overload, Descriptor.rename, Descriptor.segments,
      Descriptor.segmentsFrom, Descriptor.Segment.rename, Descriptor.ClassMap.image, hX, hY]

/-- The overloads keep their name, and `X` gets the name of `Y`: that is a conflict, also where
conflicts are ignored. -/
theorem isOk_ofGraph_iff_not_merged_overloads :
    overloads.Unambiguous ∧ merging.Clean ∧
      (¬ ∃ result, ofGraph overloads merging { ignoreConflicts := true } = .ok result) ∧
      ∃ x ∈ Descriptor.tokens (overloads.memberAt ⟨0, 0⟩).desc,
        ∃ y ∈ Descriptor.tokens (overloads.memberAt ⟨0, 1⟩).desc,
          x ≠ y ∧ ¬ (overloads.Knows x ∧ overloads.Knows y) := by
  obtain ⟨hiff, hunknown⟩ := @isOk_ofGraph_iff_not_merged overloads merging
    { ignoreConflicts := true } rfl unambiguous_overloads
  refine ⟨unambiguous_overloads, clean_merging, fun hok => hiff.1 hok _ _ merged_overloads, ?_⟩
  obtain ⟨x, hx, y, hy, hne, -, hknows⟩ := hunknown clean_merging _ _ merged_overloads
  exact ⟨x, hx, y, hy, hne, hknows⟩

end Decisions

end Relabel
