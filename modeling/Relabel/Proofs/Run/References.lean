import Relabel.Proofs.ClassFile.Codec
import Relabel.Proofs.Decisions.Answers
import Relabel.Proofs.Renaming.Classes
import Relabel.Proofs.Run.Provenance

/-!
# References after a run

A reference to a member is answered in two places: the class that refers asks for the new name of
the owner it names, the class that declares the member asks for its own. Both questions lead to one
member of the graph, so the reference still leads to the member after a successful run.

## Main results

- `Session.runPhases_ok`: the parts of a successful run.
- `Session.graph_of_runPhases`: an input of the graph is the shape of a source that was accepted.
- `Session.memberReference_of_run`: a reference still leads to its member.
-/

namespace Relabel

/-! ### Remapping -/

/-- Attempts without a problem give the result of each. -/
theorem forall₂_of_collect {α : Type} {attempts : List (Except Problem α)} {results : List α}
    (h : collect attempts = .ok results) :
    List.Forall₂ (fun attempt a => attempt = .ok a) attempts results := by
  induction attempts generalizing results with
  | nil =>
    obtain rfl := Except.ok.inj h
    exact .nil
  | cons first rest ih =>
    cases first with
    | error problem =>
      -- An error at the head is an error of the whole.
      simp only [collect] at h
      split at h <;> cases h
    | ok a =>
      simp only [collect] at h
      split at h
      · next hrest =>
        obtain rfl := Except.ok.inj h
        exact .cons rfl (ih hrest)
      · cases h

/-- What a source is made into: the name comes from the path, the bytes from the class there. -/
structure MadeFrom (r : Decisions) (settings : RelabelSettings) (source : LocatedClass)
    (out : RelabeledClass) : Prop where
  name_eq : out.name = r.className source.name
  relabeled : relabelBytes r.toRenaming settings source.bytes = .ok out.bytes

/-- Sources that are all relabeled are put in another order. -/
theorem exists_perm_of_relabelAll {r : Decisions} {settings : RelabelSettings}
    {sources : List LocatedClass} {classes : List RelabeledClass}
    (h : relabelAll r settings sources = .ok classes) :
    ∃ made, classes.Perm made ∧ List.Forall₂ (MadeFrom r settings) sources made := by
  obtain ⟨made, hmade, hsorted⟩ := Except.bind_eq_ok.1 h
  -- The outputs are those of the sources in order, and sorted then.
  obtain rfl := Except.pure_eq_ok.1 hsorted
  refine ⟨made, List.mergeSort_perm _ _, ?_⟩
  refine (List.forall₂_map_left_iff.1 (forall₂_of_collect hmade)).imp fun source out hout => ?_
  simp only [LocatedClass.relabel] at hout
  split at hout
  · next bytes hbytes =>
    obtain rfl := Except.ok.inj hout
    exact ⟨rfl, hbytes⟩
  · cases hout

/-- A class of a run before and after, with the bytes that became of it. -/
structure Rewritten (result : RunResult) (settings : RelabelSettings) (source : LocatedClass)
    (c c' : ClassFile) : Prop where
  decoded : ClassFile.decode source.bytes = .ok c
  relabeled : c.relabel result.decisions.toRenaming settings = .ok c'
  written : ∃ out ∈ result.classes, out.name = result.decisions.className source.name ∧
    c'.encode = .ok out.bytes

variable {result : RunResult} {settings : RelabelSettings} {sources : List LocatedClass}
  {source : LocatedClass} {c c' : ClassFile}

/-- Every source is relabeled and written. -/
theorem exists_rewritten (h : relabelAll result.decisions settings sources = .ok result.classes)
    (hsource : source ∈ sources) : ∃ c c', Rewritten result settings source c c' := by
  obtain ⟨made, hperm, hmade⟩ := exists_perm_of_relabelAll h
  obtain ⟨out, hout, hfrom⟩ := exists_of_mem_forall₂ hmade hsource
  obtain ⟨c, hc, c', hc', hencode⟩ := by
    simpa only [relabelBytes, Except.bind_eq_ok] using hfrom.relabeled
  exact ⟨c, c', hc, hc', out, hperm.mem_iff.2 hout, hfrom.name_eq, hencode⟩

/-- The pool never gets shorter, so it had indices for all slots before if it has them after. -/
theorem ClassFile.size_le_of_encode_relabel {names : Renaming} {bytes : Bytes}
    (h : c.relabel names settings = .ok c') (hencode : c'.encode = .ok bytes) :
    c.pool.size ≤ 65536 :=
  Nat.le_trans (size_le_relabel h) (Nat.le_of_lt (size_lt_of_encode hencode))

/-- What becomes of the constants and members of a class of a run. -/
theorem Rewritten.becomes (h : Rewritten result settings source c c') :
    ∃ thisName methods, c.name = .ok thisName ∧
      (c.scope result.decisions.toRenaming settings thisName).ClassBecomes methods c c' := by
  obtain ⟨out, -, -, hencode⟩ := h.written
  have hcoherent := ClassFile.coherent_of_decode h.decoded
    (ClassFile.size_le_of_encode_relabel h.relabeled hencode)
  obtain ⟨thisName, methods, hname, -, hbecomes⟩ :=
    ClassFile.relabel_becomes hcoherent h.relabeled
  exact ⟨thisName, methods, hname, hbecomes⟩

/-! ### Members in their classes -/

namespace ClassFile

/-- The members of one kind that a class declares. -/
def declared (c : ClassFile) : MemberKind → Array MemberInfo
  | .field => c.fields
  | .method => c.methods

/-- The place of a member among all of its class, where fields stand before methods. -/
def placeOf (c : ClassFile) : MemberKind → Nat → Nat
  | .field, j => j
  | .method, j => c.fields.size + j

end ClassFile

/-- Every member of a class is renamed where it stands. -/
theorem Scope.ClassBecomes.exists_declared {s : Scope} {methods : Array BootstrapMethod}
    (h : s.ClassBecomes methods c c') {kind : MemberKind} {j : Nat} {m : MemberInfo}
    (hm : (c.declared kind)[j]? = some m) :
    ∃ m', (c'.declared kind)[j]? = some m' ∧
      m.Renamed s.names s.thisName kind s.source c'.pool m' := by
  have hall : List.Forall₂ (MemberInfo.Renamed s.names s.thisName kind s.source c'.pool)
      (c.declared kind).toList (c'.declared kind).toList := by
    cases kind with
    | field => exact h.fields
    | method => exact h.methods
  rw [← Array.getElem?_toList] at hm
  obtain ⟨m', hm', hrenamed⟩ := exists_getElem?_of_forall₂ hall hm
  exact ⟨m', by rwa [← Array.getElem?_toList], hrenamed⟩

/-- A member that the shape of a class holds is declared by the class. -/
theorem ClassShape.Shows.exists_declared {origin : Origin} {shape : ClassShape}
    (h : shape.Shows c origin) {kind : MemberKind} {name desc : String} {index : Nat}
    (hindex : shape.memberIndex? kind name desc = some index) :
    ∃ j m, index = c.placeOf kind j ∧ (c.declared kind)[j]? = some m ∧
      m.name c.pool = .ok name ∧ m.desc c.pool = .ok desc := by
  obtain ⟨m, hm, rfl, rfl, rfl⟩ := memberIndex?_eq_some hindex
  obtain ⟨fields, methods, hmembers, hfields, hmethods⟩ := h.members_eq
  rw [← Array.getElem?_toList, hmembers] at hm
  -- The fields stand before the methods in a shape.
  rcases Nat.lt_or_ge index fields.length with hlt | hge
  · rw [List.getElem?_append_left hlt] at hm
    obtain ⟨info, hinfo, hshows⟩ := exists_getElem?_of_forall₂ hfields.flip hm
    rw [hshows.kind_eq]
    exact ⟨index, info, rfl, by simpa [ClassFile.declared] using hinfo, hshows.name_eq,
      hshows.desc_eq⟩
  · rw [List.getElem?_append_right hge] at hm
    obtain ⟨info, hinfo, hshows⟩ := exists_getElem?_of_forall₂ hmethods.flip hm
    rw [hshows.kind_eq]
    refine ⟨index - fields.length, info, ?_, by simpa [ClassFile.declared] using hinfo,
      hshows.name_eq, hshows.desc_eq⟩
    have hlength : c.fields.size = fields.length := hfields.length_eq
    simp only [ClassFile.placeOf]
    omega

/-! ### Runs -/

namespace Session

variable {options : Options} {cancelled : Phase → Bool} {threads : Nat}
  {inputs classpath : List LocatedClass} {mappings : Mapping.Renames}

/-- The classes that a run decides on. -/
def catalog (options : Options) (inputs classpath : List LocatedClass) : Catalog :=
  let loaded := (enrol (.ofClasspath classpath) inputs).catalog.loadNeeded
  (loaded.2.fillGaps loaded.1.unresolved options.resolveMissing).2

/-- A successful run decides on the names in the graph of its catalog, and carries the decisions
through all sources that were accepted. -/
theorem runPhases_ok
    (h : runPhases options cancelled threads inputs classpath mappings = .ok result) :
    (∃ warnings, Decisions.ofGraph (.ofShapes (catalog options inputs classpath).classes) mappings
      options = .ok (result.decisions, warnings)) ∧
    relabelAll result.decisions options.relabelSettings
      (enrol (.ofClasspath classpath) inputs).accepted = .ok result.classes := by
  simp only [runPhases, Except.bind_eq_ok, Except.mapError_eq_ok, Except.pure_eq_ok] at h
  obtain ⟨-, -, -, -, -, -, -, -, ⟨decisions, warnings⟩, hdecisions, -, -, classes, hclasses,
    rfl⟩ := h
  exact ⟨⟨warnings, hdecisions⟩, hclasses⟩

/-- A run that ends with a result is a run of the phases. -/
theorem run_ok {s : Session}
    (h : (s.run cancelled threads inputs classpath mappings).1 = .ok result) :
    runPhases s.options cancelled threads inputs classpath mappings = .ok result := by
  unfold run at h
  split at h
  · cases h
  · exact h

/-- An input of the catalog is the shape of a source that was accepted. -/
theorem all_catalog (options : Options) (inputs classpath : List LocatedClass) :
    (catalog options inputs classpath).All fun shape => shape.isInput →
      ∃ source ∈ (enrol (.ofClasspath classpath) inputs).accepted,
        ClassShape.decode source.bytes .input = .ok shape := by
  have hempty : (Catalog.ofClasspath classpath).All fun shape => shape.isInput →
      ∃ source ∈ (enrol (.ofClasspath classpath) inputs).accepted,
        ClassShape.decode source.bytes .input = .ok shape := by
    intro name shape h
    simp [Catalog.get?, Catalog.ofClasspath] at h
  -- Nothing is said of classes that are loaded later.
  have hothers : ∀ shape : ClassShape, ¬ shape.isInput → shape.isInput →
      ∃ source ∈ (enrol (.ofClasspath classpath) inputs).accepted,
        ClassShape.decode source.bytes .input = .ok shape :=
    fun shape hnot hinput => absurd hinput hnot
  have henrolled := all_enrol hempty
    fun source hsource shape hdecode _ => ⟨source, hsource, hdecode⟩
  exact (henrolled.loadNeeded hothers).fillGaps hothers _ _

/-- The graph of a successful run: its classes have different names, so that each is found by its
own, and its inputs are the shapes of sources that were accepted. -/
theorem graph_of_runPhases
    (h : runPhases options cancelled threads inputs classpath mappings = .ok result)
    {owner : ClassPlace} (howner : owner < result.decisions.graph.size) :
    result.decisions.graph.place? (result.decisions.graph.classAt owner).name = some owner ∧
    ((result.decisions.graph.classAt owner).isInput →
      ∃ source ∈ (enrol (.ofClasspath classpath) inputs).accepted,
        ClassShape.decode source.bytes .input = .ok (result.decisions.graph.classAt owner)) := by
  obtain ⟨⟨warnings, hdecisions⟩, -⟩ := runPhases_ok h
  have hall := all_catalog options inputs classpath
  -- The graph is that of the catalog, whose classes differ in name.
  rw [Decisions.graph_ofGraph hdecisions] at howner ⊢
  exact ⟨Graph.place?_name hall.pairwise_classes howner,
    hall.of_mem_classes (Graph.classAt_mem howner)⟩

/-- A reference and the member it leads to, after a run: the member at a place of the class `d`
before the run has become one of `d'`, and the reference at an index of the class `c'` has its new
name and descriptor, and the new name of the old owner. -/
def StillLeads (names : Renaming) (ref : MemberReference) (i : UInt16) (place : Nat)
    (c' d d' : ClassFile) : Prop :=
  ∃ j m m' name desc, place = d.placeOf ref.kind.member j ∧
    (d.declared ref.kind.member)[j]? = some m ∧ (d'.declared ref.kind.member)[j]? = some m' ∧
    m.name d.pool = .ok ref.name ∧ m.desc d.pool = .ok ref.desc ∧
    m'.name d'.pool = .ok name ∧ m'.desc d'.pool = .ok desc ∧
    c'.pool.memberReference i = .ok
      { kind := ref.kind, owner := (names.mapReference ref.owner).getD ref.owner, name, desc }

/-- After a successful run, every reference of an input that leads to a member of an input still
leads to it. -/
theorem memberReference_of_run {s : Session} {i : UInt16} {ref : MemberReference}
    {id : MemberPlace}
    (h : (s.run cancelled threads inputs classpath mappings).1 = .ok result)
    (hsource : source ∈ (enrol (.ofClasspath classpath) inputs).accepted)
    (hdecode : ClassFile.decode source.bytes = .ok c)
    (href : c.pool.memberReference i = .ok ref)
    (hfound : result.decisions.graph.lookUpMember ref.kind.member
      { owner := ref.owner, name := ref.name, desc := ref.desc } = some id)
    (hinput : (result.decisions.graph.classAt id.owner).isInput) :
    ∃ c', Rewritten result s.options.relabelSettings source c c' ∧
      ∃ target ∈ (enrol (.ofClasspath classpath) inputs).accepted,
        ∃ d d', Rewritten result s.options.relabelSettings target d d' ∧
          d.name = .ok (result.decisions.graph.classAt id.owner).name ∧
          StillLeads result.decisions.toRenaming ref i id.index c' d d' := by
  have hrun := run_ok h
  obtain ⟨-, hrelabel⟩ := runPhases_ok hrun
  obtain ⟨hplace, hsources⟩ :=
    graph_of_runPhases hrun (Graph.declares_of_lookUpMember hfound).owner_lt
  obtain ⟨target, htarget, hshape⟩ := hsources hinput
  obtain ⟨d, hd, hshows⟩ := ClassShape.shows_of_decode hshape
  -- Both classes are rewritten, and what is read from them is what was decoded.
  obtain ⟨_, c', hc'⟩ := exists_rewritten hrelabel hsource
  obtain rfl := Except.ok.inj (hdecode.symm.trans hc'.decoded)
  obtain ⟨_, d', hd'⟩ := exists_rewritten hrelabel htarget
  obtain rfl := Except.ok.inj (hd.symm.trans hd'.decoded)
  refine ⟨c', hc', target, htarget, d, d', hd', hshows.name_eq, ?_⟩
  obtain ⟨-, -, -, hindex⟩ := Graph.lookUpMember_eq_some hfound
  obtain ⟨j, m, hj, hm, hname, hdesc⟩ := hshows.exists_declared hindex
  obtain ⟨thisName, _, hthis, hmembers⟩ := hd'.becomes
  obtain rfl := Except.ok.inj (hshows.name_eq.symm.trans hthis)
  obtain ⟨m', hm', name, desc, hname', hdesc', hnewName, hnewDesc, -⟩ := hmembers.exists_declared hm
  obtain rfl := Except.ok.inj (hname.symm.trans hname')
  obtain rfl := Except.ok.inj (hdesc.symm.trans hdesc')
  refine ⟨j, m, m', _, _, hj, hm, hm', hname, hdesc, hnewName, hnewDesc, ?_⟩
  -- The declaring class asks for its own member, which is the one the reference leads to.
  have hown : result.decisions.graph.lookUpMember ref.kind.member
      { owner := (result.decisions.graph.classAt id.owner).name, name := ref.name,
        desc := ref.desc } = some id := Graph.lookUpMember_of_place? hplace hindex
  obtain ⟨_, _, -, hconstants⟩ := hc'.becomes
  have hreads := hconstants.finished.memberReference href
  rw [Scope.newMemberName, ClassFile.scope, Decisions.mapMember_congr hfound hown rfl] at hreads
  exact hreads

/-! ### An inherited field

`B` extends `A` and refers to the field `f` of `A` by its own name. -/

/-- The class `A` with its field. -/
def base : ClassFile :=
  { pool := { slots := #[.unusable, .utf8 "A", .ofClass 1, .utf8 "f", .utf8 "I"] }
    access := ⟨0x21⟩
    thisClass := 2
    superClass := 0
    fields := #[{ access := ⟨1⟩, nameIndex := 3, descIndex := 4 }] }

/-- The class `B` with its reference. -/
def derived : ClassFile :=
  { pool := { slots := #[.unusable, .utf8 "B", .ofClass 1, .utf8 "A", .ofClass 3, .utf8 "f",
      .utf8 "I", .nameAndType 5 6, .member .field 2 7] }
    access := ⟨0x21⟩
    thisClass := 2
    superClass := 4 }

/-- The binary forms of both classes. -/
def inherited : List LocatedClass :=
  [ { name := "A", location := "A.class", bytes :=
        [0xca, 0xfe, 0xba, 0xbe, 0, 0, 0, 52, 0, 5, 1, 0, 1, 65, 7, 0, 1, 1, 0, 1, 102, 1, 0, 1, 73,
          0, 0x21, 0, 2, 0, 0, 0, 0, 0, 1, 0, 1, 0, 3, 0, 4, 0, 0, 0, 0, 0, 0] },
    { name := "B", location := "B.class", bytes :=
        [0xca, 0xfe, 0xba, 0xbe, 0, 0, 0, 52, 0, 9, 1, 0, 1, 66, 7, 0, 1, 1, 0, 1, 65, 7, 0, 3, 1, 0,
          1, 102, 1, 0, 1, 73, 12, 0, 5, 0, 6, 9, 0, 2, 0, 7, 0, 0x21, 0, 2, 0, 4, 0, 0, 0, 0, 0, 0,
          0, 0] } ]

/-- The field of `A` is called `g`. -/
def toG : Mapping.Renames where
  fields := .ofList [(⟨"A", "f", "I"⟩, "g")]

/-- What is known of `A`, which declares the field. -/
def baseShape : ClassShape :=
  { name := "A", access := ⟨0x21⟩, origin := .input
    members := #[{ kind := .field, name := "f", desc := "I", access := ⟨1⟩ }] }

/-- What is known of `B`, which inherits the field and reads it. -/
def derivedShape : ClassShape :=
  { name := "B", access := ⟨0x21⟩, superName := some "A", origin := .input
    references := [.ofClass "A", .ofMember .field ⟨"B", "f", "I"⟩] }

/-- The bytes of `A` show its shape. -/
private theorem decode_base :
    ClassShape.decode inherited[0].bytes .input = .ok baseShape := by
  have hsorted : Reference.sorted [] = [] := by
    rw [Reference.sorted, List.mergeSort_nil]
    rfl
  show Except.ok { baseShape with references := Reference.sorted [] } = _
  rw [hsorted]
  rfl

/-- The bytes of `B` show its shape. -/
private theorem decode_derived :
    ClassShape.decode inherited[1].bytes .input = .ok derivedShape := by
  have hsorted : Reference.sorted derivedShape.references = derivedShape.references := by
    rw [Reference.sorted, List.mergeSort_of_pairwise (by decide)]
    decide
  show Except.ok { derivedShape with references := Reference.sorted derivedShape.references } = _
  rw [hsorted]

/-- Both classes are registered, and nothing else is needed. -/
private def registered : Catalog :=
  ((Catalog.ofClasspath []).put baseShape).put derivedShape

/-- Both classes are taken in, each as an input. -/
theorem enrol_inherited :
    enrol (.ofClasspath []) inherited = { catalog := registered, accepted := inherited } := by
  have hbase : (Catalog.ofClasspath []).register baseShape =
    ⟨baseShape, true, (Catalog.ofClasspath []).put baseShape⟩ := rfl
  have hderived : ((Catalog.ofClasspath []).put baseShape).register derivedShape =
    ⟨derivedShape, true, registered⟩ := rfl
  have hdecode := decode_base
  have hdecode' := decode_derived
  simp only [inherited, List.getElem_cons_zero, List.getElem_cons_succ] at hdecode hdecode'
  simp only [enrol, inherited, hdecode, hdecode', hbase, hderived]
  rfl

/-- The places of both classes by name. -/
private def places : Std.HashMap String ClassPlace :=
  .ofList [("A", 0), ("B", 1)]

private theorem getElem?_places : places["A"]? = some 0 ∧ places["B"]? = some 1 := by
  simp only [places]
  grind

/-- The graph of both classes. -/
private def family : Graph where
  classes := #[baseShape, derivedShape]
  index := places
  ancestors := #[#[], #[0]]
  subclasses := Graph.collectSubclasses #[baseShape, derivedShape] places
  offsets := #[0, 1, 1]

/-- The graph of the two shapes, written out. -/
private theorem ofShapes_family : Graph.ofShapes [baseShape, derivedShape] = family :=
  Graph.ofShapes_pair (by decide) rfl rfl rfl

/-- From either class the reference leads to the field of `A`. -/
private theorem lookUpMember_family (owner : String) (h : owner = "A" ∨ owner = "B") :
    family.lookUpMember .field ⟨owner, "f", "I"⟩ = some ⟨0, 0⟩ := by
  obtain ⟨hA, hB⟩ := getElem?_places
  rcases h with rfl | rfl
  all_goals
    simp [Graph.lookUpMember, Graph.place?, family, hA, hB, Graph.selfAndAncestors,
      Graph.ancestorsOf, Graph.classAt, ClassShape.memberIndex?, baseShape, derivedShape]

/-- The one decision is to call the field `g`. -/
def familyDecisions : Decisions where
  graph := family
  linkage := { groupOf := #[none] }
  mappings := toG
  groupNames := #[]
  fieldNames := #[some "g"]

/-- The only name chosen is that of the field. -/
private theorem takeNames_family :
    (Draft.start family toG {}).takeNames {} = ([], { decisions := familyDecisions }) := by
  -- Before any name is chosen the field has none.
  have hstart : Draft.start family toG {} =
    { decisions := { familyDecisions with fieldNames := #[none] } } := rfl
  -- The row gives the field a name other than its own.
  have hname : Draft.fieldName? { familyDecisions with fieldNames := #[none] } ⟨0, 0⟩ =
      some "g" := by
    have hmapped : toG.fieldName ⟨"A", "f", "I"⟩ = some "g" := by
      simp [Mapping.Renames.fieldName, toG]
    show (toG.fieldName ⟨"A", "f", "I"⟩).filter (· != "f") = some "g"
    rw [hmapped]
    rfl
  have hmembers : family.allMembers = [⟨0, 0⟩] := rfl
  have hfields : Draft.chosenFields { familyDecisions with fieldNames := #[none] } =
      #[some "g"] := by
    rw [Draft.chosenFields, show familyDecisions.graph = family from rfl, hmembers,
      List.foldl_cons, List.foldl_nil, hname]
    rfl
  rw [hstart, Draft.takeNames, hfields]
  simp [Draft.nameConflicts, Draft.chosenNames, familyDecisions]

/-- Neither class has a new name. -/
theorem mapClass_family (name : String) (h : name = "A" ∨ name = "B") :
    familyDecisions.mapClass name = none := by
  rcases h with rfl | rfl
  all_goals
    simp [Decisions.mapClass, familyDecisions, Mapping.Renames.mapClass, Nested.rename,
      Nested.renameOuter, toG]

/-- The field is renamed whichever of the two classes is named. -/
private theorem mapField_family (owner : String) (h : owner = "A" ∨ owner = "B") :
    familyDecisions.mapField ⟨owner, "f", "I"⟩ = some "g" := by
  show familyDecisions.lookUp .field ⟨owner, "f", "I"⟩ = some "g"
  simp only [Decisions.lookUp, familyDecisions, lookUpMember_family owner h]
  rfl

/-- The decisions are made without a warning. -/
private theorem ofGraph_family : Decisions.ofGraph family toG {} = .ok (familyDecisions, []) := by
  -- The two classes keep their names, which differ.
  have hclasses : Draft.classClash? familyDecisions = none := by
    have hA := mapClass_family "A" (.inl rfl)
    have hB := mapClass_family "B" (.inr rfl)
    have hfamily : familyDecisions.graph.classes = #[baseShape, derivedShape] := rfl
    simp [Draft.classClash?, Draft.classClash?.search, hfamily, baseShape, derivedShape,
      Decisions.className, hA, hB]
  -- No class declares two members.
  have hmembers : Draft.memberClashes { decisions := familyDecisions } = [] := by
    simp [Draft.memberClashes, Draft.clashesIn, Graph.places, Graph.size, Graph.membersOf,
      Graph.classAt, familyDecisions, family, baseShape, derivedShape, ClassShape.isInput,
      List.range_succ]
  simp only [Decisions.ofGraph, takeNames_family, Draft.settleClasses, Draft.settleClassesFrom,
    hclasses, Draft.settleMembers, Draft.settleMembersFrom, hmembers]
  rfl

/-- A class constant whose name stays is left as it is. -/
private theorem mapConstant_of_none {s : Scope} {methods : Array BootstrapMethod} {i n : UInt16}
    {old : String} {p : Pool} (hold : s.source.utf8 n = .ok old)
    (hnew : s.names.mapReference old = none) :
    s.mapConstant methods i (.ofClass n) p = .ok none p := by
  simp only [Scope.mapConstant, EStateM.bind_eq_ok]
  exact ⟨old, p, by rw [Scope.text, hold]; rfl, by rw [hnew]; rfl⟩

/-- A text whose new form is the old one keeps its index. -/
private theorem mapText_of_same {s : Scope} {f : String → String} {i : UInt16} {old : String}
    {p : Pool} (hold : s.source.utf8 i = .ok old) (hsame : f old = old) :
    s.mapText f i p = .ok i p := by
  simp only [Scope.mapText, EStateM.bind_eq_ok]
  exact ⟨old, p, by rw [Scope.text, hold]; rfl, by rw [if_pos hsame]; rfl⟩

open Pool in
/-- The field of `A` is pointed at a new text. -/
private theorem exists_relabel_base {names : Renaming} (hclass : names.mapReference "A" = none)
    (hdesc : names.mapDescriptor "I" = "I") (hfield : names.mapField ⟨"A", "f", "I"⟩ = some "g") :
    ∃ c', base.relabel names {} = .ok c' ∧ ∃ bytes, c'.encode = .ok bytes := by
  -- No constant holds the new name yet.
  have hnew : (indexOf base.pool.slots)[SearchKey.utf8 "g"]? = none := by
    simp [indexOf, base, List.zipIdx, Constant.key?]
  obtain ⟨index, hintern⟩ : ∃ index, internText "g" base.pool =
      .ok 5 { slots := base.pool.slots.push (.utf8 "g"), index } :=
    ⟨_, @intern_of_new (.utf8 "g") rfl base.pool hnew (by decide)⟩
  -- None of the constants changes, for the class keeps its name.
  have hpool : (base.scope names {} "A").mapPool #[] base.pool = .ok () base.pool := by
    simp only [Scope.mapPool, ClassFile.scope, base, List.zipIdx, List.drop_succ_cons,
      List.drop_zero, List.forM_eq_forM, List.forM_cons, List.forM_nil, EStateM.bind_eq_ok]
    exact ⟨(), _, ⟨none, _, rfl, rfl⟩, (), _, ⟨none, _, mapConstant_of_none rfl hclass, rfl⟩,
      (), _, ⟨none, _, rfl, rfl⟩, (), _, ⟨none, _, rfl, rfl⟩, rfl⟩
  -- The field gets the index of the new name.
  obtain ⟨access, hmember⟩ : ∃ access, (base.scope names {} "A").renameMember .field
      { access := ⟨1⟩, nameIndex := 3, descIndex := 4 } base.pool =
      .ok { access, nameIndex := 5, descIndex := 4 }
        { slots := base.pool.slots.push (.utf8 "g"), index } := by
    simp only [Scope.renameMember, EStateM.bind_eq_ok]
    refine ⟨_, "f", _, rfl, "I", _, rfl, 5, { slots := base.pool.slots.push (.utf8 "g"), index },
      ?_, 4, _, ?_, #[], _, congrFun (ClassFile.renameAttributes_empty _) _, rfl⟩
    · show Scope.newIndex (names.mapField ⟨"A", "f", "I"⟩) 3 base.pool = _
      rw [hfield]
      exact hintern
    · exact mapText_of_same rfl hdesc
  obtain ⟨access', hbody⟩ : ∃ access', (base.scope names {} "A").renameBody base base.pool =
      .ok { base with access := access', fields := #[{ access, nameIndex := 5, descIndex := 4 }] }
        { slots := base.pool.slots.push (.utf8 "g"), index } := by
    simp only [Scope.renameBody, EStateM.bind_eq_ok, base, List.mapM_toArray, List.mapM_cons,
      List.mapM_nil, ClassFile.renameAttributes_empty]
    exact ⟨_, _, _, EStateM.map_eq_ok.2 ⟨_, EStateM.bind_eq_ok.2 ⟨_, _, hmember, rfl⟩, rfl⟩,
      #[], _, rfl, #[], _, rfl, rfl⟩
  exact ⟨_, ClassFile.relabel_of_steps rfl rfl hpool hbody, _, rfl⟩

/-- The slots of `derived` once its reference is to `g`. -/
private def derivedSlots : Array Constant :=
  #[.unusable, .utf8 "B", .ofClass 1, .utf8 "A", .ofClass 3, .utf8 "f", .utf8 "I",
    .nameAndType 5 6, .member .field 2 10, .utf8 "g", .nameAndType 9 6]

open Pool in
/-- The new name and type that the reference of `B` is pointed at. -/
private theorem internNameAndType_derived : ∃ index, internNameAndType "g" "I" derived.pool =
    .ok 10 { slots := (derived.pool.slots.push (.utf8 "g")).push (.nameAndType 9 6), index } := by
  obtain ⟨hg, hI, hnames⟩ : (indexOf derived.pool.slots)[SearchKey.utf8 "g"]? = none ∧
      (indexOf derived.pool.slots)[SearchKey.utf8 "I"]? = some 6 ∧
      (indexOf derived.pool.slots)[SearchKey.nameAndType 9 6]? = none := by
    simp only [indexOf, derived, List.zipIdx, Constant.key?, List.drop_succ_cons, List.drop_zero,
      List.foldl_cons, List.foldl_nil, Std.HashMap.getElem?_insertIfNew,
      Std.HashMap.mem_insertIfNew]
    simp
  -- The name is new, its type is there, and so the pair of both is new.
  simp only [internNameAndType, EStateM.bind_eq_ok]
  refine ⟨_, 9, _, @intern_of_new (.utf8 "g") rfl derived.pool hg (by decide), 6, _,
    intern_of_found ?_, @intern_of_new (.nameAndType 9 6) rfl _ ?_ (by decide)⟩
  · show ((indexOf derived.pool.slots).insertIfNew (.utf8 "g") 9)[SearchKey.utf8 "I"]? = some 6
    simpa [Std.HashMap.getElem?_insertIfNew] using hI
  · show ((indexOf derived.pool.slots).insertIfNew (.utf8 "g") 9)[SearchKey.nameAndType 9 6]? = none
    simpa [Std.HashMap.getElem?_insertIfNew] using hnames

/-- The reference of `B` is pointed at a new name and type. -/
private theorem exists_relabel_derived {names : Renaming} (hA : names.mapReference "A" = none)
    (hB : names.mapReference "B" = none) (hdesc : names.mapDescriptor "I" = "I")
    (hfield : names.mapField ⟨"B", "f", "I"⟩ = some "g") :
    ∃ c', derived.relabel names {} = .ok c' ∧ ∃ bytes, c'.encode = .ok bytes := by
  obtain ⟨index, hintern⟩ := internNameAndType_derived
  -- The constant in slot 8 gets the pair of the new name and the old descriptor.
  have hconstant : (derived.scope names {} "B").mapConstant #[] 8 (.member .field 2 7)
      derived.pool = .ok (some (.member .field 2 10))
        { slots := (derived.pool.slots.push (.utf8 "g")).push (.nameAndType 9 6), index } := by
    simp only [Scope.mapConstant, EStateM.bind_eq_ok]
    refine ⟨⟨.field, "B", "f", "I"⟩, _, rfl, some 10, _, ?_, rfl⟩
    show Scope.changedNames _ "f" "I" (names.mapField ⟨"B", "f", "I"⟩) derived.pool = _
    rw [hfield, Scope.changedNames]
    refine EStateM.map_eq_ok.2 ⟨10, ?_, rfl⟩
    rw [show (derived.scope names {} "B").names.mapDescriptor "I" = "I" from hdesc]
    exact hintern
  obtain ⟨index, hpool⟩ : ∃ index, (derived.scope names {} "B").mapPool #[] derived.pool =
      .ok () { slots := derivedSlots, index } := by
    simp only [Scope.mapPool, ClassFile.scope, derived, List.zipIdx, List.drop_succ_cons,
      List.drop_zero, List.forM_eq_forM, List.forM_cons, List.forM_nil, EStateM.bind_eq_ok]
    exact ⟨_, (), _, ⟨none, _, rfl, rfl⟩, (), _, ⟨none, _, mapConstant_of_none rfl hB, rfl⟩,
      (), _, ⟨none, _, rfl, rfl⟩, (), _, ⟨none, _, mapConstant_of_none rfl hA, rfl⟩,
      (), _, ⟨none, _, rfl, rfl⟩, (), _, ⟨none, _, rfl, rfl⟩, (), _, ⟨none, _, rfl, rfl⟩,
      (), _, ⟨_, _, hconstant, rfl⟩, rfl⟩
  -- The class declares nothing, so only the pool changes.
  obtain ⟨access, hbody⟩ : ∃ access, (derived.scope names {} "B").renameBody derived
      { slots := derivedSlots, index } =
      .ok { derived with access } { slots := derivedSlots, index } := by
    simp only [Scope.renameBody, EStateM.bind_eq_ok, derived, List.mapM_toArray, List.mapM_nil,
      ClassFile.renameAttributes_empty]
    exact ⟨_, #[], _, rfl, #[], _, rfl, #[], _, rfl, rfl⟩
  exact ⟨_, ClassFile.relabel_of_steps rfl rfl hpool hbody, _, rfl⟩

/-- Both classes are rewritten without an error. -/
private theorem exists_relabelAll_inherited :
    ∃ classes, relabelAll familyDecisions (Options.relabelSettings {}) inherited = .ok classes := by
  have hA := mapClass_family "A" (.inl rfl)
  have hB := mapClass_family "B" (.inr rfl)
  obtain ⟨c, hc, bytes, hbytes⟩ :=
    @exists_relabel_base familyDecisions.toRenaming hA rfl (mapField_family "A" (.inl rfl))
  obtain ⟨d, hd, bytes', hbytes'⟩ :=
    @exists_relabel_derived familyDecisions.toRenaming hA hB rfl (mapField_family "B" (.inr rfl))
  have hbase : relabelBytes familyDecisions.toRenaming (Options.relabelSettings {})
      inherited[0].bytes = .ok bytes :=
    Except.bind_eq_ok.2 ⟨base, rfl, Except.bind_eq_ok.2 ⟨c, hc, hbytes⟩⟩
  have hderived : relabelBytes familyDecisions.toRenaming (Options.relabelSettings {})
      inherited[1].bytes = .ok bytes' :=
    Except.bind_eq_ok.2 ⟨derived, rfl, Except.bind_eq_ok.2 ⟨d, hd, hbytes'⟩⟩
  have hinputs : inherited = [inherited[0], inherited[1]] := rfl
  rw [hinputs, relabelAll]
  simp only [List.map_cons, List.map_nil, LocatedClass.relabel, hbase, hderived, collect]
  exact ⟨_, rfl⟩

/-- The run ends with the decisions written out above. -/
theorem exists_run_inherited : ∃ result,
    (({ options := {} } : Session).run (fun _ => false) 1 inherited [] toG).1 = .ok result ∧
      result.decisions = familyDecisions := by
  obtain ⟨classes, hclasses⟩ := exists_relabelAll_inherited
  -- Nothing is missing, so the classes are those that were registered.
  have hload : registered.loadNeeded = ({}, registered) := rfl
  have hgaps : registered.fillGaps {} false = ([], registered) := rfl
  have hshapes : registered.classes = [baseShape, derivedShape] := rfl
  obtain ⟨stats, hrun⟩ : ∃ stats, runPhases {} (fun _ => false) 1 inherited [] toG =
      .ok { classes, decisions := familyDecisions, warnings := [], stats } := by
    simp only [runPhases, Except.bind_eq_ok, Except.mapError_eq_ok, enrol_inherited, hload, hgaps,
      hshapes, ofShapes_family, ofGraph_family]
    exact ⟨_, (), rfl, (), rfl, (), rfl, (), rfl, _, rfl, (), rfl, classes, hclasses, rfl⟩
  exact ⟨_, hrun, rfl⟩

/-- The reference of `B` leads to the field of `A`, which is renamed. -/
theorem memberReference_of_run_inherited : ∃ result : RunResult,
    (({ options := {} } : Session).run (fun _ => false) 1 inherited [] toG).1 = .ok result ∧
    result.decisions.toRenaming.mapField ⟨"A", "f", "I"⟩ = some "g" ∧
    result.decisions.graph.lookUpMember .field ⟨"B", "f", "I"⟩ = some ⟨0, 0⟩ ∧
    ∃ c', Rewritten result {} inherited[1] derived c' ∧
      ∃ target ∈ inherited, ∃ d d', Rewritten result {} target d d' ∧ d.name = .ok "A" ∧
        StillLeads result.decisions.toRenaming ⟨.field, "B", "f", "I"⟩ 8 0 c' d d' := by
  obtain ⟨result, hrun, hdecisions⟩ := exists_run_inherited
  have hsource : inherited[1] ∈ (enrol (.ofClasspath []) inherited).accepted := by
    rw [enrol_inherited]
    exact List.getElem_mem _
  have hdecode : ClassFile.decode inherited[1].bytes = .ok derived := rfl
  have href : derived.pool.memberReference 8 = .ok ⟨.field, "B", "f", "I"⟩ := rfl
  have hfound : result.decisions.graph.lookUpMember .field ⟨"B", "f", "I"⟩ = some ⟨0, 0⟩ := by
    -- What is known of the decisions holds of the result.
    rw [hdecisions]
    exact lookUpMember_family "B" (.inr rfl)
  have hinput : (result.decisions.graph.classAt 0).isInput := by
    rw [hdecisions]
    rfl
  have hname : (result.decisions.graph.classAt 0).name = "A" := by
    rw [hdecisions]
    rfl
  have hleads := memberReference_of_run hrun hsource hdecode href hfound hinput
  rw [enrol_inherited, hname] at hleads
  refine ⟨result, hrun, ?_, hfound, hleads⟩
  rw [hdecisions]
  exact mapField_family "A" (.inl rfl)

end Session

end Relabel
