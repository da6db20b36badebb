import Relabel.Proofs.Run.Sources

/-!
# Runs that fail

The problems of a phase are looked at when it is finished for all classes. So a run that fails while
it builds tells of every input that is no class file, in the order of the inputs, and then of all
that went wrong on the classpath, where loading went on from the good inputs. A run that fails while
it remaps tells of every accepted source that could not be relabeled.

## Main results

- `faults_enrol`, `faults_of_relabelAll`: one problem for each source that fails, in order.
- `Session.endsAs_runPhases`: the ways in which a run ends that nobody cancels.
- `Session.tellsAll_of_run`: in which phase a run fails, and what it tells then.
-/

namespace Relabel

variable {α : Type} {attempt : LocatedClass → Except FormatError α} {source : LocatedClass}
  {sources inputs classpath : List LocatedClass} {problems : List Problem}

/-! ### One problem for each source -/

/-- The problems that an attempt on each of some sources ends with: one for each source it fails on,
in their order. -/
def Faults (attempt : LocatedClass → Except FormatError α) (sources : List LocatedClass)
    (problems : List Problem) : Prop :=
  List.Forall₂ (fun source problem => ∃ e, attempt source = .error e ∧
      problem = .codec source.label (.format e))
    (sources.filter fun source => !(attempt source).isOk) problems

namespace Faults

theorem nil : Faults attempt [] [] :=
  List.Forall₂.nil

/-- A source that is read adds no fault. -/
theorem cons_ok {a : α} (hattempt : attempt source = .ok a) (h : Faults attempt sources problems) :
    Faults attempt (source :: sources) problems := by
  rw [Faults, List.filter_cons_of_neg (by simp [hattempt, Except.isOk, Except.toBool])]
  exact h

/-- A source that cannot be read adds its fault in front. -/
theorem cons_error {e : FormatError} (hattempt : attempt source = .error e)
    (h : Faults attempt sources problems) :
    Faults attempt (source :: sources) (source.problem e :: problems) := by
  rw [Faults, List.filter_cons_of_pos (by simp [hattempt, Except.isOk, Except.toBool])]
  exact .cons ⟨e, hattempt, rfl⟩ h

/-- There are problems if the attempt fails on some source. -/
theorem ne_nil_iff (h : Faults attempt sources problems) :
    problems ≠ [] ↔ ∃ source ∈ sources, ∃ e, attempt source = .error e := by
  rw [ne_eq, ← eq_nil_iff_of_forall₂ h, List.filter_eq_nil_iff]
  push Not
  refine exists_congr fun source => and_congr_right fun _ => ?_
  cases attempt source <;> simp [Except.isOk, Except.toBool]

end Faults

/-- Enrolling has one problem for each input that is no class file. -/
theorem faults_enrol (c : Catalog) (inputs : List LocatedClass) :
    Faults (fun source => ClassShape.decode source.bytes .input) inputs
      (enrol c inputs).problems := by
  induction inputs generalizing c with
  | nil => exact .nil
  | cons source rest ih =>
    cases hdecode : ClassShape.decode source.bytes .input with
    | error e =>
      simp only [enrol, hdecode]
      exact .cons_error hdecode (ih c)
    | ok shape =>
      have hproblems : (enrol c (source :: rest)).problems =
          (enrol (c.register shape).catalog rest).problems := by
        simp only [enrol, hdecode]
        -- A class that is registered before is a warning, and no problem.
        split <;> rfl
      rw [hproblems]
      exact .cons_ok hdecode (ih _)

/-- What a list of attempts fails with: nothing where it succeeds. -/
def problemsOf {α : Type} : Except (List Problem) α → List Problem
  | .ok _ => []
  | .error problems => problems

/-- The problems of rewriting are those of the classes that cannot be rewritten. -/
theorem faults_collect (r : Decisions) (settings : RelabelSettings) (sources : List LocatedClass) :
    Faults (fun source => relabelBytes r.toRenaming settings source.bytes) sources
      (problemsOf (collect (sources.map (·.relabel r settings)))) := by
  induction sources with
  | nil => exact .nil
  | cons source rest ih =>
    cases hbytes : relabelBytes r.toRenaming settings source.bytes with
    | error e =>
      -- The problem stands in front, whether or not the others succeed.
      have hproblems : problemsOf (collect ((source :: rest).map (·.relabel r settings))) =
          source.problem e :: problemsOf (collect (rest.map (·.relabel r settings))) := by
        simp only [List.map_cons, LocatedClass.relabel, hbytes, collect]
        split <;> simp_all [problemsOf]
      rw [hproblems]
      exact .cons_error hbytes ih
    | ok bytes =>
      have hproblems : problemsOf (collect ((source :: rest).map (·.relabel r settings))) =
          problemsOf (collect (rest.map (·.relabel r settings))) := by
        simp only [List.map_cons, LocatedClass.relabel, hbytes, collect]
        split <;> simp_all [problemsOf]
      rw [hproblems]
      exact .cons_ok hbytes ih

/-- Attempts do not fail without a problem. -/
theorem ne_nil_of_collect {attempts : List (Except Problem α)}
    (h : collect attempts = .error problems) : problems ≠ [] := by
  induction attempts generalizing problems with
  | nil => cases h
  | cons first rest ih =>
    cases first with
    | error problem =>
      simp only [collect] at h
      split at h <;> cases h <;> simp
    | ok a =>
      simp only [collect] at h
      split at h
      · cases h
      · next hrest =>
        cases h
        exact ih hrest

/-- Remapping fails with one problem for each source that could not be relabeled. -/
theorem faults_of_relabelAll {r : Decisions} {settings : RelabelSettings}
    (h : relabelAll r settings sources = .error problems) :
    Faults (fun source => relabelBytes r.toRenaming settings source.bytes) sources problems ∧
      problems ≠ [] := by
  have hcollect : collect (sources.map (·.relabel r settings)) = .error problems := by
    cases hresult : collect (sources.map (·.relabel r settings)) with
    | error found =>
      simp only [relabelAll, hresult] at h
      exact h
    | ok made =>
      simp only [relabelAll, hresult] at h
      cases h
  have hfaults := faults_collect r settings sources
  rw [hcollect] at hfaults
  exact ⟨hfaults, ne_nil_of_collect hcollect⟩

/-- Where all sources are relabeled nothing was wrong with any of them. -/
theorem ok_of_relabelAll {r : Decisions} {settings : RelabelSettings}
    {classes : List RelabeledClass} (h : relabelAll r settings sources = .ok classes) :
    ∀ source ∈ sources, ∃ bytes, relabelBytes r.toRenaming settings source.bytes = .ok bytes := by
  obtain ⟨made, -, hmade⟩ := exists_perm_of_relabelAll h
  intro source hsource
  obtain ⟨out, -, hout⟩ := exists_of_mem_forall₂ hmade hsource
  exact ⟨out.bytes, hout.relabeled⟩

/-- Decisions are not refused without a problem. -/
theorem Decisions.ne_nil_of_ofGraph {g : Graph} {mappings : Mapping.Renames} {options : Options}
    (h : ofGraph g mappings options = .error problems) : problems ≠ [] := by
  simp only [ofGraph] at h
  split at h
  · cases h
  · next hsome =>
    cases h
    exact hsome

/-! ### The ways in which a run ends -/

namespace Session

variable {options : Options} {cancelled : Phase → Bool} {threads : Nat}
  {mappings : Mapping.Renames} {outcome : Except Failure RunResult} {r : Decisions}

/-- What loading reports in a run. -/
def reached (inputs classpath : List LocatedClass) : Catalog.LoadReport :=
  (enrol (.ofClasspath classpath) inputs).catalog.loadNeeded.1

/-- The supertypes that a run neither finds nor may stand in for. -/
def gaps (options : Options) (inputs classpath : List LocatedClass) : List Problem :=
  let loaded := (enrol (.ofClasspath classpath) inputs).catalog.loadNeeded
  (loaded.2.fillGaps loaded.1.unresolved options.resolveMissing).1

/-- Building succeeds: all inputs are class files, and loading reports nothing. -/
structure Built (inputs classpath : List LocatedClass) : Prop where
  readable : Readable inputs
  loaded : (reached inputs classpath).problems = []

/-- The phase of building is passed exactly where neither part of it has a problem. -/
theorem built_iff : Built inputs classpath ↔
    (enrol (.ofClasspath classpath) inputs).problems ++ (reached inputs classpath).problems =
      [] := by
  rw [List.append_eq_nil_iff, problems_enrol_eq_nil]
  exact ⟨fun h => ⟨h.readable, h.loaded⟩, fun h => ⟨h.1, h.2⟩⟩

/-- Building and resolving succeed, with these decisions. -/
structure Resolved (options : Options) (inputs classpath : List LocatedClass)
    (mappings : Mapping.Renames) (r : Decisions) : Prop where
  built : Built inputs classpath
  noGaps : gaps options inputs classpath = []
  decided : ∃ warnings, Decisions.ofGraph (.ofShapes (catalog options inputs classpath).classes)
    mappings options = .ok (r, warnings)

/-- There is one set of decisions. -/
theorem Resolved.unique {r' : Decisions} (h : Resolved options inputs classpath mappings r)
    (h' : Resolved options inputs classpath mappings r') : r = r' := by
  obtain ⟨warnings, hdecided⟩ := h.decided
  obtain ⟨warnings', hdecided'⟩ := h'.decided
  cases hdecided.symm.trans hdecided'
  rfl

/-- The ways in which a run can end. -/
inductive EndsAs (options : Options) (inputs classpath : List LocatedClass)
    (mappings : Mapping.Renames) : Except Failure RunResult → Prop
  | notBuilt (problems : List Problem)
      (told : problems = (enrol (.ofClasspath classpath) inputs).problems ++
        (reached inputs classpath).problems)
      (found : problems ≠ []) :
      EndsAs options inputs classpath mappings (.error ⟨.building, problems⟩)
  | notResolved (problems : List Problem) (found : problems ≠ []) (built : Built inputs classpath)
      (refused : ∀ r, ¬ Resolved options inputs classpath mappings r) :
      EndsAs options inputs classpath mappings (.error ⟨.resolving, problems⟩)
  | notRemapped (r : Decisions) (problems : List Problem)
      (resolved : Resolved options inputs classpath mappings r)
      (failed : relabelAll r options.relabelSettings
        (enrol (.ofClasspath classpath) inputs).accepted = .error problems) :
      EndsAs options inputs classpath mappings (.error ⟨.remapping, problems⟩)
  | finished (result : RunResult)
      (resolved : Resolved options inputs classpath mappings result.decisions)
      (done : relabelAll result.decisions options.relabelSettings
        (enrol (.ofClasspath classpath) inputs).accepted = .ok result.classes) :
      EndsAs options inputs classpath mappings (.ok result)

/-- A phase fails exactly where it has problems, and with all of them. -/
theorem failIf_eq_error {phase : Phase} {f : Failure} :
    failIf phase problems = .error f ↔ problems ≠ [] ∧ f = ⟨phase, problems⟩ := by
  unfold failIf
  cases problems <;> simp [eq_comm]

/-- A run that nobody cancels ends in one of these ways. -/
theorem endsAs_runPhases (options : Options) (threads : Nat) (inputs classpath : List LocatedClass)
    (mappings : Mapping.Renames) :
    EndsAs options inputs classpath mappings
      (runPhases options (fun _ => false) threads inputs classpath mappings) := by
  have hnever (current next : Phase) : advance (fun _ => false) current next = .ok () := rfl
  cases hrun : runPhases options (fun _ => false) threads inputs classpath mappings with
  | ok result =>
    simp only [runPhases, Except.bind_eq_ok, Except.mapError_eq_ok, Except.pure_eq_ok,
      failIf_eq_ok] at hrun
    obtain ⟨_, -, _, hbuilt, _, -, _, hgaps, ⟨decisions, warnings⟩, hdecided, _, -, classes,
      hclasses, rfl⟩ := hrun
    exact .finished _ ⟨built_iff.2 hbuilt, hgaps, warnings, hdecided⟩ hclasses
  | error f =>
    simp only [runPhases, hnever, Except.bind_eq_error, Except.mapError_eq_error, failIf_eq_error,
      failIf_eq_ok, Except.mapError_eq_ok, Except.pure_eq_error, reduceCtorEq, and_false,
      exists_false, or_false, false_or, true_and, exists_const] at hrun
    -- The first step that fails gives its problems, and those before it succeed.
    rcases hrun with ⟨hsome, rfl⟩ | ⟨hbuilt, ⟨hsome, rfl⟩ | ⟨hgaps, ⟨problems, hrefused, rfl⟩ |
      ⟨⟨decisions, warnings⟩, hdecided, problems, hfailed, rfl⟩⟩⟩
    · exact .notBuilt _ rfl hsome
    · exact .notResolved _ hsome (built_iff.2 hbuilt) fun r hr => hsome hr.noGaps
    · refine .notResolved _ (Decisions.ne_nil_of_ofGraph hrefused) (built_iff.2 hbuilt) ?_
      intro r hr
      obtain ⟨warnings, hdecided⟩ := hr.decided
      cases hrefused.symm.trans hdecided
    · exact .notRemapped decisions problems ⟨built_iff.2 hbuilt, hgaps, warnings, hdecided⟩ hfailed

/-! ### What a run tells -/

/-- A run is not built because of an input that is no class file, or a problem while loading. -/
theorem not_built_iff : ¬ Built inputs classpath ↔
    (∃ source ∈ inputs, ∃ e, ClassShape.decode source.bytes .input = .error e) ∨
      (reached inputs classpath).problems ≠ [] := by
  rw [built_iff, List.append_eq_nil_iff, not_and_or, ← ne_eq, (faults_enrol _ _).ne_nil_iff]

namespace EndsAs

variable {f : Failure}

/-- A run ends in building exactly where the inputs cannot be built. -/
theorem building_iff (h : EndsAs options inputs classpath mappings outcome) :
    (∃ f, outcome = .error f ∧ f.phase = .building) ↔ ¬ Built inputs classpath := by
  cases h with
  | notBuilt problems told found =>
    exact ⟨fun _ hbuilt => found (told.trans (built_iff.1 hbuilt)), fun _ => ⟨_, rfl, rfl⟩⟩
  | notResolved _ _ built => simp [built]
  | notRemapped _ _ resolved => simp [resolved.built]
  | finished _ resolved => simp [resolved.built]

/-- The decisions are those of the way in which the run ends, as there is one set of them. -/
theorem remapping_iff (h : EndsAs options inputs classpath mappings outcome) :
    (∃ f, outcome = .error f ∧ f.phase = .remapping) ↔
      ∃ r, Resolved options inputs classpath mappings r ∧
        ∃ source ∈ (enrol (.ofClasspath classpath) inputs).accepted, ∃ e,
          relabelBytes r.toRenaming options.relabelSettings source.bytes = .error e := by
  -- One case for each way in which a run ends.
  cases h with
  | notBuilt problems told found =>
    have hbuilt : ¬ Built inputs classpath := fun h => found (told.trans (built_iff.1 h))
    simpa using fun r (hr : Resolved options inputs classpath mappings r) => absurd hr.built hbuilt
  | notResolved _ _ _ refused =>
    simpa using fun r (hr : Resolved options inputs classpath mappings r) => absurd hr (refused r)
  | notRemapped r problems resolved failed =>
    obtain ⟨hfaults, hsome⟩ := faults_of_relabelAll failed
    exact ⟨fun _ => ⟨r, resolved, hfaults.ne_nil_iff.1 hsome⟩, fun _ => ⟨_, rfl, rfl⟩⟩
  | finished result resolved done =>
    refine ⟨by rintro ⟨_, ⟨⟩, -⟩, ?_⟩
    rintro ⟨r, hr, source, hsource, e, he⟩
    obtain rfl := hr.unique resolved
    obtain ⟨bytes, hbytes⟩ := ok_of_relabelAll done source hsource
    cases he.symm.trans hbytes

/-- A run that ends in building tells of every fault and gap. -/
theorem problems_building (h : EndsAs options inputs classpath mappings (.error f))
    (hphase : f.phase = .building) :
    ∃ faults, Faults (fun source => ClassShape.decode source.bytes .input) inputs faults ∧
      f.problems = faults ++ (reached inputs classpath).problems := by
  cases h with
  | notBuilt problems told => exact ⟨_, faults_enrol _ _, told⟩
  | notResolved => cases hphase
  | notRemapped => cases hphase

/-- A run that ends in rewriting tells of every fault. -/
theorem problems_remapping (h : EndsAs options inputs classpath mappings (.error f))
    (hphase : f.phase = .remapping) :
    ∃ r, Resolved options inputs classpath mappings r ∧
      Faults (fun source => relabelBytes r.toRenaming options.relabelSettings source.bytes)
        (enrol (.ofClasspath classpath) inputs).accepted f.problems := by
  cases h with
  | notBuilt => cases hphase
  | notResolved => cases hphase
  | notRemapped r problems resolved failed =>
    exact ⟨r, resolved, (faults_of_relabelAll failed).1⟩

/-- A run that ends in failure tells of something. -/
theorem problems_ne_nil (h : EndsAs options inputs classpath mappings (.error f)) :
    f.problems ≠ [] := by
  cases h with
  | notBuilt problems told found => exact found
  | notResolved problems found => exact found
  | notRemapped r problems resolved failed => exact (faults_of_relabelAll failed).2

end EndsAs

/-- In which phase a run fails, and that it then tells of all that failed in this phase. -/
structure TellsAll (options : Options) (inputs classpath : List LocatedClass)
    (mappings : Mapping.Renames) (outcome : Except Failure RunResult × Session) : Prop where
  /-- It fails while building if an input is no class file, or loading reports a problem. -/
  building_iff : (∃ f, outcome.1 = .error f ∧ f.phase = .building) ↔
    (∃ source ∈ inputs, ∃ e, ClassShape.decode source.bytes .input = .error e) ∨
      (reached inputs classpath).problems ≠ []
  /-- It then tells of the inputs, and after them of what loading reports. -/
  building : ∀ f, outcome.1 = .error f → f.phase = .building →
    ∃ faults, Faults (fun source => ClassShape.decode source.bytes .input) inputs faults ∧
      f.problems = faults ++ (reached inputs classpath).problems
  /-- It fails while remapping if it came so far, and an accepted source cannot be relabeled. -/
  remapping_iff : (∃ f, outcome.1 = .error f ∧ f.phase = .remapping) ↔
    ∃ r, Resolved options inputs classpath mappings r ∧
      ∃ source ∈ (enrol (.ofClasspath classpath) inputs).accepted, ∃ e,
        relabelBytes r.toRenaming options.relabelSettings source.bytes = .error e
  /-- It then tells of the accepted sources. -/
  remapping : ∀ f, outcome.1 = .error f → f.phase = .remapping →
    ∃ r, Resolved options inputs classpath mappings r ∧
      Faults (fun source => relabelBytes r.toRenaming options.relabelSettings source.bytes)
        (enrol (.ofClasspath classpath) inputs).accepted f.problems
  /-- It never fails without a problem, and is over then. -/
  failed : ∀ f, outcome.1 = .error f → f.problems ≠ [] ∧ outcome.2.phase = .failed

/-- A first run that nobody cancels tells of all that failed in the phase in which it fails. -/
theorem tellsAll_of_run (options : Options) (threads : Nat) (inputs classpath : List LocatedClass)
    (mappings : Mapping.Renames) :
    TellsAll options inputs classpath mappings
      (({ options } : Session).run (fun _ => false) threads inputs classpath mappings) := by
  have hends : EndsAs options inputs classpath mappings
      (({ options } : Session).run (fun _ => false) threads inputs classpath mappings).1 :=
    endsAs_runPhases options threads inputs classpath mappings
  refine ⟨hends.building_iff.trans not_built_iff, ?_, hends.remapping_iff, ?_, ?_⟩
  · intro f hf hphase
    exact (hf ▸ hends).problems_building hphase
  · intro f hf hphase
    exact (hf ▸ hends).problems_remapping hphase
  · intro f hf
    refine ⟨(hf ▸ hends).problems_ne_nil, ?_⟩
    have hresult : runPhases options (fun _ => false) threads inputs classpath mappings =
        .error f := hf
    show (if Except.isOk _ then Phase.finished else Phase.failed) = .failed
    rw [hresult]
    rfl

end Session

end Relabel
