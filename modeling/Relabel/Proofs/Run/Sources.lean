import Relabel.Proofs.Catalog.Shadowed
import Relabel.Proofs.Decisions.Access
import Relabel.Proofs.Run.InputOrder

/-!
# Every class once

Of the inputs that hold one class the first makes an output, and each later one a warning. Which of
them is the first is told by the class files alone; enrolling finds out by looking into the catalog,
one source after the other, so the lists below are built from their ends as the catalog is. A class
of the classpath with the name of an input is never due, so what its file holds does not matter.

## Main results

- `nodup_firstSources`, `mem_declared_firstSources`: the first sources hold every class once.
- `sources_enrol`: enrolling accepts the first sources and sets the later ones apart.
- `Session.eachOnce_of_run`: the outputs and warnings of a run that succeeds, source for source.
-/

namespace Relabel

variable {inputs classpath classpath' : List LocatedClass} {n : String}

/-! ### First and later sources -/

/-- The name of the class that a source holds, if it is a class file. -/
def LocatedClass.declared? (source : LocatedClass) : Option String :=
  ((ClassFile.decode source.bytes).bind (·.name)).toOption

/-- A source declares the class that its bytes hold. -/
theorem LocatedClass.declared?_eq_some {source : LocatedClass} :
    source.declared? = some n ↔ source.bytes.Holds n := by
  rw [declared?, toOption_eq_some]
  exact Except.bind_eq_ok

/-- A source declares the name in its shape. -/
theorem LocatedClass.declared?_of_decode {source : LocatedClass} {shape : ClassShape}
    (h : ClassShape.decode source.bytes .input = .ok shape) : source.declared? = some shape.name :=
  declared?_eq_some.2 (ClassShape.holds_of_decode h)

/-- Whether a source holds a class that a source before its place holds. -/
def isRepeat (inputs : List LocatedClass) (entry : LocatedClass × Nat) : Bool :=
  entry.1.declared? ∈ (inputs.take entry.2).map (·.declared?)

/-- The sources that hold a class as the first, in order. -/
def firstSources (inputs : List LocatedClass) : List LocatedClass :=
  (inputs.zipIdx.filter fun entry => !isRepeat inputs entry).map Prod.fst

/-- The other sources, in order. -/
def laterSources (inputs : List LocatedClass) : List LocatedClass :=
  (inputs.zipIdx.filter (isRepeat inputs)).map Prod.fst

/-- Every source is a first or a later one. -/
theorem length_firstSources_add (inputs : List LocatedClass) :
    (firstSources inputs).length + (laterSources inputs).length = inputs.length := by
  have hsplit := List.length_eq_length_filter_add (l := inputs.zipIdx) (isRepeat inputs)
  rw [List.length_zipIdx] at hsplit
  rw [firstSources, laterSources, List.length_map, List.length_map]
  omega

/-- A further source at the end makes no difference to the places before it. -/
theorem filter_isRepeat_concat (p : Bool → Bool) (inputs : List LocatedClass)
    (source : LocatedClass) :
    ((inputs ++ [source]).zipIdx.filter fun entry => p (isRepeat (inputs ++ [source]) entry)).map
        Prod.fst =
      (inputs.zipIdx.filter fun entry => p (isRepeat inputs entry)).map Prod.fst ++
        if p (source.declared? ∈ inputs.map (·.declared?)) then [source] else [] := by
  -- Whether a place repeats depends on the places before it only.
  have hbefore : ∀ entry ∈ inputs.zipIdx,
      isRepeat (inputs ++ [source]) entry = isRepeat inputs entry := by
    intro entry hentry
    have hle : entry.2 ≤ inputs.length := (List.snd_lt_of_mem_zipIdx hentry).le
    rw [isRepeat, List.take_append_of_le_length hle, isRepeat]
  have hlast : isRepeat (inputs ++ [source]) (source, inputs.length) =
      decide (source.declared? ∈ inputs.map (·.declared?)) := by
    rw [isRepeat, List.take_left]
  rw [List.zipIdx_append, List.filter_append, List.map_append,
    List.filter_congr fun entry hentry => congrArg p (hbefore entry hentry)]
  congr 1
  simp only [List.zipIdx_singleton, Nat.zero_add, List.filter_cons, List.filter_nil, hlast]
  split <;> rfl

/-- A source at the end is a first one unless its class was declared before it. -/
theorem firstSources_concat (inputs : List LocatedClass) (source : LocatedClass) :
    firstSources (inputs ++ [source]) = firstSources inputs ++
      if source.declared? ∈ inputs.map (·.declared?) then [] else [source] := by
  refine (filter_isRepeat_concat (!·) inputs source).trans (congrArg _ ?_)
  by_cases hold : source.declared? ∈ inputs.map (·.declared?) <;> simp only [hold] <;> rfl

/-- A source at the end is a later one if its class was declared before it. -/
theorem laterSources_concat (inputs : List LocatedClass) (source : LocatedClass) :
    laterSources (inputs ++ [source]) = laterSources inputs ++
      if source.declared? ∈ inputs.map (·.declared?) then [source] else [] := by
  refine (filter_isRepeat_concat id inputs source).trans (congrArg _ ?_)
  by_cases hold : source.declared? ∈ inputs.map (·.declared?) <;> simp only [hold] <;> rfl

/-- Every class that a source holds is held by a first source. -/
theorem mem_declared_firstSources (inputs : List LocatedClass) (name : Option String) :
    name ∈ (firstSources inputs).map (·.declared?) ↔ name ∈ inputs.map (·.declared?) := by
  induction inputs using List.reverseRecOn with
  | nil => rfl
  | append_singleton inputs source ih =>
    rw [firstSources_concat, List.map_append, List.mem_append, ih, List.map_append, List.mem_append]
    split
    · next hold =>
      -- The class was there, so nothing is added on either side.
      simp only [List.map_nil, List.not_mem_nil, or_false, List.map_singleton, List.mem_singleton]
      exact (or_iff_left_of_imp fun heq => heq ▸ hold).symm
    · rfl

/-- No two first sources hold the same class. -/
theorem nodup_firstSources (inputs : List LocatedClass) :
    ((firstSources inputs).map (·.declared?)).Nodup := by
  induction inputs using List.reverseRecOn with
  | nil => exact List.nodup_nil
  | append_singleton inputs source ih =>
    rw [firstSources_concat]
    split
    · rwa [List.append_nil]
    · next hnew =>
      -- A new source holds a class that no first source before it holds.
      rw [List.map_append, List.nodup_append]
      refine ⟨ih, List.nodup_singleton _, ?_⟩
      rintro name hname _ hlast rfl
      rw [List.map_singleton, List.mem_singleton] at hlast
      rw [mem_declared_firstSources, hlast] at hname
      exact hnew hname

/-! ### Enrolling -/

/-- Sources after others are enrolled into the catalog that those leave. -/
theorem enrol_append (c : Catalog) (inputs others : List LocatedClass) :
    enrol c (inputs ++ others) =
      let before := enrol c inputs
      let after := enrol before.catalog others
      { catalog := after.catalog
        accepted := before.accepted ++ after.accepted
        duplicates := before.duplicates ++ after.duplicates
        problems := before.problems ++ after.problems } := by
  induction inputs generalizing c with
  | nil => rfl
  | cons source rest ih =>
    rw [List.cons_append]
    -- Bytes that are no class leave the catalog, a class may or may not be new to it.
    cases hdecode : ClassShape.decode source.bytes .input with
    | error e =>
      simp only [enrol, hdecode, ih]
      rfl
    | ok shape =>
      simp only [enrol, hdecode, ih]
      cases (c.register shape).isNew <;> rfl

theorem mem_shapesOf {shape : ClassShape} : shape ∈ shapesOf inputs ↔
    ∃ source ∈ inputs, ClassShape.decode source.bytes .input = .ok shape := by
  simp only [shapesOf, List.mem_filterMap, toOption_eq_some]

/-- All sources are class files of which a shape can be taken. -/
def Readable (inputs : List LocatedClass) : Prop :=
  ∀ source ∈ inputs, ∃ shape, ClassShape.decode source.bytes .input = .ok shape

/-- Once sources have been enrolled that can be read, the classes they hold are registered. -/
theorem contains_enrol (classpath : List LocatedClass) (hread : Readable inputs) :
    (enrol (.ofClasspath classpath) inputs).catalog.contains n ↔
      some n ∈ inputs.map (·.declared?) := by
  have hempty : (Catalog.ofClasspath classpath).get? n = none := by
    simp [Catalog.ofClasspath, Catalog.get?]
  -- The roots are registered into a catalog that is empty but for its classpath.
  rw [Catalog.contains_iff, catalog_enrol, Catalog.get?_foldl_register, hempty, Option.none_or,
    ← Option.isSome_iff_exists, List.find?_isSome, List.mem_map]
  constructor
  · rintro ⟨shape, hshape, hname⟩
    obtain ⟨source, hsource, hdecode⟩ := mem_shapesOf.1 hshape
    rw [decide_eq_true_iff] at hname
    exact ⟨source, hsource, hname ▸ source.declared?_of_decode hdecode⟩
  · rintro ⟨source, hsource, hdeclared⟩
    obtain ⟨shape, hdecode⟩ := hread source hsource
    have hname := (source.declared?_of_decode hdecode).symm.trans hdeclared
    exact ⟨shape, mem_shapesOf.2 ⟨source, hsource, hdecode⟩,
      decide_eq_true (Option.some.inj hname)⟩

/-- One more source at the end: its class is known if a source before holds it. -/
theorem enrol_concat {source : LocatedClass} {shape : ClassShape}
    (hread : Readable inputs)
    (hdecode : ClassShape.decode source.bytes .input = .ok shape) :
    enrol (.ofClasspath classpath) (inputs ++ [source]) =
      let before := enrol (.ofClasspath classpath) inputs
      if source.declared? ∈ inputs.map (·.declared?) then
        { before with duplicates := before.duplicates ++ [source] }
      else
        { before with
          catalog := before.catalog.put shape
          accepted := before.accepted ++ [source] } := by
  have htaken := contains_enrol (n := shape.name) classpath hread
  rw [← source.declared?_of_decode hdecode] at htaken
  rw [enrol_append]
  simp only [enrol, hdecode, Catalog.register_eq_commit, Catalog.commit]
  -- The class is known already exactly where a source before it holds it.
  cases hget : (enrol (.ofClasspath classpath) inputs).catalog.get? shape.name with
  | some existing =>
    rw [if_pos (htaken.1 (Catalog.contains_iff.2 ⟨existing, hget⟩))]
    simp
  | none =>
    rw [if_neg (mt htaken.2 (Catalog.get?_eq_none_iff.1 hget))]
    simp

/-- Sources that can be read are accepted if they are the first to hold their class. -/
theorem sources_enrol (classpath : List LocatedClass) (hread : Readable inputs) :
    (enrol (.ofClasspath classpath) inputs).accepted = firstSources inputs ∧
      (enrol (.ofClasspath classpath) inputs).duplicates = laterSources inputs := by
  induction inputs using List.reverseRecOn with
  | nil => exact ⟨rfl, rfl⟩
  | append_singleton inputs source ih =>
    obtain ⟨hinputs, hlast⟩ := List.forall_mem_append.1 hread
    obtain ⟨shape, hdecode⟩ := hlast source (List.mem_singleton_self source)
    obtain ⟨haccepted, hduplicates⟩ := ih hinputs
    rw [enrol_concat hinputs hdecode, firstSources_concat, laterSources_concat]
    -- The source repeats an earlier one, or is the first of its class.
    split
    · exact ⟨haccepted.trans (List.append_nil _).symm, congrArg (· ++ [source]) hduplicates⟩
    · exact ⟨congrArg (· ++ [source]) haccepted, hduplicates.trans (List.append_nil _).symm⟩

/-! ### The classpath behind the inputs -/

/-- Two classpaths that hold the same under every name but those of classes of the inputs. -/
def SameBehind (inputs classpath classpath' : List LocatedClass) : Prop :=
  ∀ n, some n ∉ inputs.map (·.declared?) →
    classpath.find? (·.name = n) = classpath'.find? (·.name = n)

/-- The inputs are enrolled alike in front of either. -/
theorem agree_enrol (hread : Readable inputs)
    (h : SameBehind inputs classpath classpath') :
    (enrol (.ofClasspath classpath) inputs).catalog.Agree
      (enrol (.ofClasspath classpath') inputs).catalog where
  shapes := by
    have hempty : (Catalog.ofClasspath classpath).shapes =
        (Catalog.ofClasspath classpath').shapes := rfl
    rw [catalog_enrol, catalog_enrol]
    exact Catalog.Agree.shapes_foldl_register hempty _
  visible n hn := by
    -- Behind a name that is not enrolled both classpaths hold the same entry.
    rw [contains_enrol classpath hread] at hn
    have hsame := h n hn
    rwa [catalog_enrol, catalog_enrol, Catalog.classpath_foldl_register,
      Catalog.classpath_foldl_register, Catalog.getElem?_ofClasspath,
      Catalog.getElem?_ofClasspath]

/-! ### Warnings -/

/-- Whether a warning is on a source that is not used. -/
def Warning.isDuplicate : Warning → Bool
  | .duplicateClass .. => true
  | .accessViolation .. | .conflictIgnored .. | .conflictingMappings .. => false

/-- Decisions warn of names and of access, never of sources. -/
theorem Decisions.not_isDuplicate_of_ofGraph {g : Graph} {mappings : Mapping.Renames}
    {options : Options} {r : Decisions} {warnings : List Warning}
    (h : ofGraph g mappings options = .ok (r, warnings)) : ∀ w ∈ warnings, ¬ w.isDuplicate := by
  obtain ⟨d, -, rfl, hreviewed⟩ := exists_reviewed h
  intro w hw
  rw [Draft.warnings, List.mem_reverse, hreviewed.reported, List.mem_append, List.mem_reverse,
    List.mem_map] at hw
  -- A warning comes from the review of access or from the choice of names.
  rcases hw with ⟨⟨referencing, breach⟩, -, rfl⟩ | hnames
  · cases breach <;> exact Bool.false_ne_true
  · have honNames := (Draft.namesOnly_settled g mappings options).reported w hnames
    cases w with
    | duplicateClass => cases honNames
    | accessViolation | conflictIgnored | conflictingMappings => exact Bool.false_ne_true

/-- The warnings on repeated sources are as many as these. -/
theorem countP_isDuplicate (sources : List LocatedClass) {others : List Warning}
    (hothers : ∀ w ∈ others, ¬ w.isDuplicate) :
    (sources.map (·.duplicateWarning) ++ others).countP Warning.isDuplicate = sources.length := by
  rw [List.countP_append, List.countP_map, List.countP_eq_zero.2 hothers, Nat.add_zero]
  exact List.countP_eq_length.2 fun _ _ => rfl

/-! ### Runs -/

namespace Session

variable {s : Session} {cancelled : Phase → Bool} {threads : Nat} {mappings : Mapping.Renames}
  {result : RunResult}

/-- What a run makes of its inputs. -/
structure EachOnce (settings : RelabelSettings) (inputs : List LocatedClass) (result : RunResult) :
    Prop where
  /-- Every input holds a class. -/
  held : ∀ source ∈ inputs, ∃ n, source.declared? = some n
  /-- No class is lost. -/
  complete : ∀ source ∈ inputs, source.declared? ∈ (firstSources inputs).map (·.declared?)
  /-- No class comes twice. -/
  distinct : ((firstSources inputs).map (·.declared?)).Nodup
  /-- The outputs are what becomes of the first sources. -/
  outputs : ∃ made, List.Forall₂ (fun source out =>
      source.relabel result.decisions settings = .ok out) (firstSources inputs) made ∧
    result.classes.Perm made
  sorted : result.classes.Pairwise fun a b => a.name ≤ b.name
  /-- The warnings on the others come before all other warnings. -/
  warned : ∃ others, result.warnings = (laterSources inputs).map (·.duplicateWarning) ++ others ∧
    ∀ w ∈ others, ¬ w.isDuplicate
  count : result.classes.length + result.warnings.countP Warning.isDuplicate = inputs.length

/-- However far loading has come, no class of an input is due. -/
def NeverDue (inputs classpath : List LocatedClass) : Prop :=
  ∀ t, Relation.ReflTransGen (fun s s' => s.next = some s')
      (enrol (.ofClasspath classpath) inputs).catalog.loading t →
    ∀ source ∈ inputs, ∀ n, source.declared? = some n → n ∉ t.due

/-- No class of an input is due, for it was known from the start. -/
theorem neverDue (hread : Readable inputs) :
    NeverDue inputs classpath := by
  intro t hwaves source hsource n hdeclared
  have hcontains := (contains_enrol classpath hread).2
    (List.mem_map.2 ⟨source, hsource, hdeclared⟩)
  obtain ⟨shape, hget⟩ := Catalog.contains_iff.1 hcontains
  exact (Catalog.not_mem_due_of_waves hwaves hget).1

/-- What a run relabels are its first sources, and it warns of the later ones. -/
theorem exists_outputs
    (h : runPhases s.options cancelled threads inputs classpath mappings = .ok result) :
    Readable inputs ∧
      relabelAll result.decisions s.options.relabelSettings (firstSources inputs) =
        .ok result.classes ∧
      ∃ others, result.warnings = (laterSources inputs).map (·.duplicateWarning) ++ others ∧
        ∀ w ∈ others, ¬ w.isDuplicate := by
  simp only [runPhases, Except.bind_eq_ok, Except.mapError_eq_ok, Except.pure_eq_ok, failIf_eq_ok,
    List.append_eq_nil_iff] at h
  -- Only the problems of building, the decisions and the outputs matter here.
  obtain ⟨_, -, _, ⟨hproblems, -⟩, _, -, _, -, ⟨decisions, warnings⟩, hdecisions, _, -, classes,
    hclasses, rfl⟩ := h
  have hread := (problems_enrol_eq_nil _ _).1 hproblems
  obtain ⟨haccepted, hduplicates⟩ := sources_enrol classpath hread
  rw [haccepted] at hclasses
  exact ⟨hread, hclasses, warnings, by rw [hduplicates],
    Decisions.not_isDuplicate_of_ofGraph hdecisions⟩

/-- A run that succeeds does so with any classpath that differs only under names of its inputs. -/
theorem run_of_sameBehind (hbehind : SameBehind inputs classpath classpath')
    (h : (s.run cancelled threads inputs classpath mappings).1 = .ok result) :
    (s.run cancelled threads inputs classpath' mappings).1 = .ok result := by
  -- The phases are gone through in both runs, each with the same outcome.
  obtain ⟨hread, -⟩ := exists_outputs (run_ok h)
  have hagree := agree_enrol hread hbehind
  obtain ⟨haccepted, hduplicates⟩ := sources_enrol classpath hread
  obtain ⟨haccepted', hduplicates'⟩ := sources_enrol classpath' hread
  obtain ⟨hreport, hloaded⟩ := hagree.loadNeeded
  obtain ⟨hgaps, hfilled⟩ :=
    hloaded.fillGaps (enrol (.ofClasspath classpath) inputs).catalog.loadNeeded.1.unresolved
      s.options.resolveMissing
  unfold run at h ⊢
  split at h
  · cases h
  · next hidle =>
    rw [if_neg hidle]
    simp only [runPhases, Except.bind_eq_ok, Except.mapError_eq_ok, Except.pure_eq_ok,
      failIf_eq_ok, List.append_eq_nil_iff] at h ⊢
    obtain ⟨_, hbuilding, _, ⟨-, hproblems⟩, hrest⟩ := h
    rw [← hreport, ← hgaps, ← hfilled.classes_eq, haccepted', hduplicates']
    rw [haccepted, hduplicates] at hrest
    exact ⟨(), hbuilding, (), ⟨(problems_enrol_eq_nil _ _).2 hread, hproblems⟩, hrest⟩

/-- After a run that succeeds no class is lost and none comes twice: the outputs, in the order of
their names, are what becomes of the first source of each class, and the warnings start with one
for every other source. No class of an input was ever to be loaded, so whatever the classpath has
under its name, the run is the same. -/
theorem eachOnce_of_run (h : (s.run cancelled threads inputs classpath mappings).1 = .ok result) :
    EachOnce s.options.relabelSettings inputs result ∧ NeverDue inputs classpath ∧
      ∀ classpath', SameBehind inputs classpath classpath' →
        (s.run cancelled threads inputs classpath' mappings).1 = .ok result := by
  obtain ⟨hread, hclasses, others, hwarnings, hothers⟩ := exists_outputs (run_ok h)
  refine ⟨?_, neverDue hread, fun _ hbehind => run_of_sameBehind hbehind h⟩
  obtain ⟨made, hmade, hsorted⟩ := Except.bind_eq_ok.1 hclasses
  obtain hsorted := Except.pure_eq_ok.1 hsorted
  -- The outputs are sorted by name, and each comes from one of the first sources.
  have hperm : result.classes.Perm made := hsorted ▸ List.mergeSort_perm _ _
  have hrelabel := List.forall₂_map_left_iff.1 (forall₂_of_collect hmade)
  refine ⟨fun source hsource => ?_, fun source hsource => ?_, nodup_firstSources inputs,
    ⟨made, hrelabel, hperm⟩, hsorted ▸ pairwise_mergeSort_name made, ⟨others, hwarnings, hothers⟩,
    ?_⟩
  · obtain ⟨shape, hdecode⟩ := hread source hsource
    exact ⟨shape.name, source.declared?_of_decode hdecode⟩
  · rw [mem_declared_firstSources]
    exact List.mem_map_of_mem hsource
  · have hsplit := length_firstSources_add inputs
    have hlength : result.classes.length = (firstSources inputs).length :=
      hperm.length_eq.trans hrelabel.length_eq.symm
    rw [hwarnings, countP_isDuplicate _ hothers]
    omega

/-! ### A class that comes again

`A` is given twice, and there is a broken class file in its place on the classpath. -/

/-- The first of `inherited` in another place. -/
def again : LocatedClass := { inherited[0] with location := "again.jar" }

/-- A file under the name of `A` that is no class file. -/
def brokenBehind : LocatedClass := { name := "A", location := "lib.jar", bytes := [0, 1, 2] }

/-- Both sources hold a class. -/
theorem readable_inherited : Readable inherited := by
  refine (problems_enrol_eq_nil (.ofClasspath []) inherited).1 ?_
  rw [enrol_inherited]

/-- A source of a class that came before changes nothing but the warnings. -/
theorem exists_run_concat {source : LocatedClass} {shape : ClassShape}
    (hdecode : ClassShape.decode source.bytes .input = .ok shape)
    (hrepeat : source.declared? ∈ inputs.map (·.declared?))
    (h : (s.run cancelled threads inputs classpath mappings).1 = .ok result) :
    ∃ warnings, (s.run cancelled threads (inputs ++ [source]) classpath mappings).1 =
      .ok { result with warnings } := by
  obtain ⟨hread, -⟩ := exists_outputs (run_ok h)
  unfold run at h ⊢
  split at h
  · cases h
  · next hidle =>
    rw [if_neg hidle]
    simp only [runPhases, enrol_concat hread hdecode, if_pos hrepeat, Except.bind_eq_ok,
      Except.mapError_eq_ok, Except.pure_eq_ok] at h ⊢
    -- The phases of the shorter run serve for the longer one as well.
    obtain ⟨_, hbuilding, _, hproblems, _, hresolving, _, hmissing, decided, hdecisions, _,
      hremapping, classes, hclasses, rfl⟩ := h
    exact ⟨_, (), hbuilding, (), hproblems, (), hresolving, (), hmissing, decided, hdecisions, (),
      hremapping, classes, hclasses, rfl⟩

/-- There are two outputs and a warning, whether the broken file is there or not. -/
theorem eachOnce_of_run_again : ∃ result : RunResult,
    (({ options := {} } : Session).run (fun _ => false) 1 (inherited ++ [again]) [] toG).1 =
      .ok result ∧
    EachOnce (Options.relabelSettings {}) (inherited ++ [again]) result ∧
    result.classes.length = 2 ∧
    (∃ others, result.warnings = .duplicateClass "A" "again.jar" :: others) ∧
    (({ options := {} } : Session).run (fun _ => false) 1 (inherited ++ [again]) [brokenBehind]
      toG).1 = .ok result := by
  obtain ⟨first, hfirst, -⟩ := exists_run_inherited
  obtain ⟨shape, hdecode⟩ : ∃ shape, ClassShape.decode again.bytes .input = .ok shape :=
    readable_inherited inherited[0] (List.getElem_mem _)
  -- The last source declares `A` once more.
  have hrepeat : again.declared? ∈ inherited.map (·.declared?) := List.mem_cons_self
  obtain ⟨warnings, hrun⟩ := exists_run_concat hdecode hrepeat hfirst
  obtain ⟨honce, -, hbehind⟩ := eachOnce_of_run hrun
  have hlater : laterSources (inherited ++ [again]) = [again] := by
    rw [laterSources_concat, if_pos hrepeat]
    rfl
  obtain ⟨others, hwarnings, hothers⟩ := honce.warned
  rw [hlater] at hwarnings
  have hcount := honce.count
  rw [hwarnings] at hcount
  have hdup := countP_isDuplicate [again] hothers
  refine ⟨_, hrun, honce, ?_, ⟨others, hwarnings⟩, hbehind _ fun n hn => ?_⟩
  · rw [hdup] at hcount
    exact Nat.add_right_cancel hcount
  · have hne : "A" ≠ n := by
      rintro rfl
      exact hn List.mem_cons_self
    simp [brokenBehind, hne]

end Session

end Relabel
