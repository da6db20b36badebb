import Mathlib.Data.List.Nodup
import Relabel.Proofs.Catalog.Contents

/-!
# Schedules of a wave

The classes of a wave are loaded by as many jobs, all at once. They share the catalog: one job may
register a class between two steps of another. A schedule says whose turn it is, one step of a job
at a time, and jobs have their turns in any order.

A job looks at one name and registers under it alone, since a class file that declares another name
than its path says is refused before it is registered. The names of a wave are different, so a job
finds under its name what was there when the wave began, whatever the others did.

## Main results

- `Catalog.fetch_eq`: the steps that one job makes up.
- `Catalog.Job.step_shows`: a step comes to what it would come to without the other jobs.
- `Catalog.Crew.underway_run`: so does a run of steps, of all jobs in any order.
- `Catalog.loadNeeded_of_schedule`: loading comes to the same with every schedule.
-/

namespace Relabel.Catalog

variable {c c₀ : Catalog} {n name : String} {required : Bool}

/-! ### The steps of a job -/

/-- What a job has to register: the class it found, or a stand-in in its place. -/
inductive Find where
  | entry (shape : ClassShape)
  | gap (name : String)

namespace Find

/-- The shape that is to be registered. -/
def shape : Find → ClassShape
  | .entry shape => shape
  | .gap name => .standIn name .unresolved

/-- What comes of a job that has registered, or found its name taken. -/
def result : Find → Registered → FetchResult
  | .entry _, registered => if registered.isNew then .loaded registered.shape else .skipped
  | .gap _, _ => .missing

end Find

/-- What a job finds for a class that is not registered: something to register, or else what comes
of the job at once. -/
def find (c : Catalog) (name : String) (required : Bool) : Except FetchResult Find :=
  match c.classpath[name]? with
  | none => if required then .ok (.gap name) else .error .skipped
  | some found =>
    let label := name ++ " (" ++ found.location ++ ")"
    match ClassShape.decode found.bytes .classpath with
    | .error e => .error (.failed (.codec label (.format e)))
    | .ok shape =>
      if shape.name = name then .ok (.entry shape)
      else .error (.failed (.codec label (.declares shape.name)))

/-- How far a job has come. -/
inductive Job where
  | waiting
  /-- Next it looks whether the name of what it found is taken. -/
  | looking (find : Find)
  /-- Next it registers what it found, unless the name is taken by now. -/
  | committing (find : Find)
  | done (result : FetchResult)

/-- One step of a job: one look at the catalog, or one registration. -/
def Job.step (c : Catalog) (name : String) (required : Bool) : Job → Job × Catalog
  | .waiting =>
    if c.contains name then (.done .skipped, c)
    else match c.find name required with
      | .error result => (.done result, c)
      | .ok find => (.looking find, c)
  | .looking find => match c.get? find.shape.name with
    | some existing => (.done (find.result ⟨existing, false, c⟩), c)
    | none => (.committing find, c)
  | .committing find =>
    let registered := c.commit find.shape
    (.done (find.result registered), registered.catalog)
  | .done result => (.done result, c)

/-- The steps of a job without any other in between load the class. -/
theorem fetch_eq (c : Catalog) (name : String) (required : Bool) :
    c.fetch name required =
      if c.contains name then (.skipped, c)
      else match c.find name required with
        | .error result => (result, c)
        | .ok find =>
          (find.result (c.register find.shape), (c.register find.shape).catalog) := by
  unfold fetch find
  split
  · rfl
  -- Both definitions look in the classpath first, then at the shape, then at its name.
  cases c.classpath[name]? with
  | none => cases required <;> rfl
  | some found =>
    dsimp only
    cases ClassShape.decode found.bytes .classpath with
    | error e => rfl
    | ok shape =>
      by_cases hname : shape.name = name
      · simp only [if_pos hname]
        rfl
      · simp only [if_neg hname]

/-- What a job found has the name it looked for. -/
theorem name_of_find {found : Find} (h : c.find name required = .ok found) :
    found.shape.name = name := by
  unfold find at h
  -- A stand-in has the name that was asked for, and an entry is checked for it.
  split at h
  · split at h
    · cases h
      rfl
    · cases h
  · dsimp only at h
    split at h
    · cases h
    · split at h
      · next hname =>
        cases h
        exact hname
      · cases h

theorem find_congr (h : c.classpath = c₀.classpath) : c.find = c₀.find := by
  funext name required
  simp only [find, h]

theorem get?_commit (c : Catalog) (shape : ClassShape) (n : String) :
    (c.commit shape).catalog.get? n =
      (c.get? n).or (if shape.name = n then some shape else none) := by
  rw [← register_eq_commit, get?_register]

theorem classpath_commit (c : Catalog) (shape : ClassShape) :
    (c.commit shape).catalog.classpath = c.classpath := by
  unfold commit
  split <;> rfl

/-- Loading a class leaves the other names alone. -/
theorem get?_fetch_of_ne (hne : n ≠ name) (required : Bool) :
    (c.fetch name required).2.get? n = c.get? n := by
  rw [fetch_eq]
  split
  · rfl
  split
  · rfl
  · next found hfind =>
    rw [get?_register, name_of_find hfind, if_neg (Ne.symm hne), Option.or_none]

/-- A fetch leaves the classpath as it is. -/
theorem classpath_fetch (c : Catalog) (name : String) (required : Bool) :
    (c.fetch name required).2.classpath = c.classpath := by
  rw [fetch_eq]
  split
  · rfl
  split
  · rfl
  · rw [register_eq_commit, classpath_commit]

namespace Job

/-- How far a job can have come that loads a class into a catalog, with what is registered under
the name of the class by then. -/
inductive Shows (c₀ : Catalog) (name : String) (required : Bool) : Job → Option ClassShape → Prop
  | waiting : Shows c₀ name required .waiting (c₀.get? name)
  | looking {found : Find} : c₀.get? name = none → c₀.find name required = .ok found →
      Shows c₀ name required (.looking found) none
  | committing {found : Find} : c₀.get? name = none → c₀.find name required = .ok found →
      Shows c₀ name required (.committing found) none
  | done : Shows c₀ name required (.done (c₀.fetch name required).1)
      ((c₀.fetch name required).2.get? name)

/-- A job has registered when it is done, and what comes of it does not depend on what else the
catalog holds by then. -/
theorem shows_done {found : Find} {registered : Registered} (hnew : c₀.get? name = none)
    (hfind : c₀.find name required = .ok found) (hshape : registered.shape = found.shape)
    (hisNew : registered.isNew = true) :
    Shows c₀ name required (.done (found.result registered)) (some found.shape) := by
  -- The name is free in `c₀`, so fetching it there registers the shape.
  have hname := name_of_find hfind
  have hregister : c₀.register found.shape = ⟨found.shape, true, c₀.put found.shape⟩ :=
    register_of_new (hname ▸ hnew)
  have hfetch : c₀.fetch name required =
      (found.result ⟨found.shape, true, c₀.put found.shape⟩, c₀.put found.shape) := by
    rw [fetch_eq, if_neg (get?_eq_none_iff.1 hnew), hfind]
    simp only [hregister]
  have hresult : found.result registered = (c₀.fetch name required).1 := by
    rw [hfetch]
    cases found with
    | entry shape => simp only [Find.result, hshape, hisNew]
    | gap name => rfl
  have hget : some found.shape = (c₀.fetch name required).2.get? name := by
    rw [hfetch, get?_put, if_pos hname]
  rw [hresult, hget]
  exact .done

/-- Whatever other jobs have registered under other names, a step of a job comes to what it would
come to without them, and touches its own name only. -/
theorem step_shows {job : Job} (h : Shows c₀ name required job (c.get? name))
    (hclasspath : c.classpath = c₀.classpath) :
    Shows c₀ name required (job.step c name required).1
        ((job.step c name required).2.get? name) ∧
      (job.step c name required).2.classpath = c₀.classpath ∧
      ∀ n, n ≠ name → (job.step c name required).2.get? n = c.get? n := by
  -- What the catalog knows of the name is an index of `Shows`, so it is made a variable first.
  generalize hshown : c.get? name = shown at h
  cases h with
  | waiting =>
    have hcontains : c.contains name ↔ c₀.contains name := by
      rw [contains_iff, contains_iff, hshown]
    by_cases hold : c₀.contains name
    · -- The class was there before the wave.
      have hfetch : c₀.fetch name required = (.skipped, c₀) := by rw [fetch_eq, if_pos hold]
      have hstep : Job.waiting.step c name required = (.done .skipped, c) := by
        rw [step, if_pos (hcontains.2 hold)]
      have hdone : Shows c₀ name required (.done (c₀.fetch name required).1) _ := .done
      rw [hfetch] at hdone
      rw [hstep]
      exact ⟨hshown ▸ hdone, hclasspath, fun _ _ => rfl⟩
    · have hnew := get?_eq_none_iff.2 hold
      have hstep : Job.waiting.step c name required = match c₀.find name required with
          | .error result => (.done result, c)
          | .ok found => (.looking found, c) := by
        rw [step, if_neg (mt hcontains.1 hold), find_congr hclasspath]
      rw [hstep]
      -- Nothing is found and the job ends, or the job goes on with what it found.
      cases hfind : c₀.find name required with
      | error result =>
        have hfetch : c₀.fetch name required = (result, c₀) := by
          rw [fetch_eq, if_neg hold, hfind]
        have hdone : Shows c₀ name required (.done (c₀.fetch name required).1) _ := .done
        rw [hfetch] at hdone
        exact ⟨hshown ▸ hdone, hclasspath, fun _ _ => rfl⟩
      | ok found =>
        refine ⟨?_, hclasspath, fun _ _ => rfl⟩
        rw [hshown, hnew]
        exact .looking hnew hfind
  | @looking found hnew hfind =>
    have hstep : (Job.looking found).step c name required = (.committing found, c) := by
      rw [step, name_of_find hfind, hshown]
    rw [hstep]
    refine ⟨?_, hclasspath, fun _ _ => rfl⟩
    rw [hshown]
    exact .committing hnew hfind
  | @committing found hnew hfind =>
    have hname := name_of_find hfind
    have hcommit : c.commit found.shape = ⟨found.shape, true, c.put found.shape⟩ := by
      rw [commit, hname, hshown]
    -- Under its own name the commit registers the shape, under other names it changes nothing.
    refine ⟨?_, (classpath_commit c found.shape).trans hclasspath, fun n hne => ?_⟩
    · rw [step, get?_commit, hname, if_pos rfl, hshown, Option.none_or]
      exact shows_done hnew hfind (by rw [hcommit]) (by rw [hcommit])
    · rw [step, get?_commit, hname, if_neg (Ne.symm hne), Option.or_none]
  | done =>
    refine ⟨?_, hclasspath, fun _ _ => rfl⟩
    rw [step, hshown]
    exact .done

/-- The number of steps a job may still take. -/
def left : Job → Nat
  | .waiting => 3
  | .looking _ => 2
  | .committing _ => 1
  | .done _ => 0

/-- Every step brings a job nearer to its end, or it is there. -/
theorem left_step (c : Catalog) (name : String) (required : Bool) (job : Job) :
    (job.step c name required).1.left ≤ job.left - 1 := by
  cases job with
  -- A job that waits may end at once, or has its two other steps left.
  | waiting =>
    rw [step]
    split
    · exact Nat.zero_le _
    · split
      · exact Nat.zero_le _
      · exact Nat.le_refl _
  | looking found =>
    rw [step]
    split
    · exact Nat.zero_le _
    · exact Nat.le_refl _
  | committing | done => exact Nat.le_refl _

/-- What came of a job that is done. -/
def result? : Job → Option FetchResult
  | .done result => some result
  | .waiting | .looking _ | .committing _ => none

/-- A job with no steps left has a result. -/
theorem result?_of_left_eq_zero {job : Job} (h : job.left = 0) : job.result?.isSome := by
  cases job with
  | done => rfl
  | waiting | looking | committing => cases h

end Job

/-! ### The jobs of a wave -/

/-- The jobs of a wave and the catalog they share. -/
structure Crew where
  catalog : Catalog
  jobs : List (String × Request × Job)

/-- No job has taken a step. -/
def crew (c : Catalog) (due : List (String × Request)) : Crew where
  catalog := c
  jobs := due.map fun (name, request) => (name, request, .waiting)

namespace Crew

/-- The job at a place takes a step. -/
def turn (crew : Crew) (i : Nat) : Crew :=
  match crew.jobs[i]? with
  | none => crew
  | some (name, request, job) =>
    let (job, catalog) := job.step crew.catalog name request.required
    { catalog, jobs := crew.jobs.set i (name, request, job) }

/-- Jobs take steps, in the order of their turns. -/
def run (crew : Crew) (turns : List Nat) : Crew :=
  turns.foldl turn crew

/-- All jobs are done. -/
def Finished (crew : Crew) : Prop :=
  ∀ e ∈ crew.jobs, e.2.2.result?.isSome

/-- What came of the jobs that are done, in the order of the wave. -/
def outcomes (crew : Crew) : List (String × Request × FetchResult) :=
  crew.jobs.filterMap fun (name, request, job) => job.result?.map fun result =>
    (name, request, result)

/-- How far the jobs of a wave can have come: each as far as it could have come without the others,
and nothing else has happened to the catalog. -/
structure Underway (c₀ : Catalog) (due : List (String × Request)) (crew : Crew) : Prop where
  entries : crew.jobs.map (fun e => (e.1, e.2.1)) = due
  classpath : crew.catalog.classpath = c₀.classpath
  shows : ∀ e ∈ crew.jobs, e.2.2.Shows c₀ e.1 e.2.1.required (crew.catalog.get? e.1)
  kept : ∀ n, n ∉ due.map Prod.fst → crew.catalog.get? n = c₀.get? n

variable {crew : Crew} {due : List (String × Request)}

/-- Before the first turn every job waits and the catalog is as it was. -/
theorem underway_crew (c₀ : Catalog) (due : List (String × Request)) :
    (c₀.crew due).Underway c₀ due where
  entries := by simp [Catalog.crew, Function.comp_def]
  classpath := rfl
  shows e he := by
    obtain ⟨entry, -, rfl⟩ := List.mem_map.1 he
    exact .waiting
  kept _ _ := rfl

/-- A turn keeps that: the job whose turn it is does its part, and has a name of its own. -/
theorem Underway.turn (h : crew.Underway c₀ due) (hdistinct : (due.map Prod.fst).Nodup) (i : Nat) :
    (crew.turn i).Underway c₀ due := by
  unfold Crew.turn
  split
  · exact h
  · next name request job hjob =>
    obtain ⟨hlt, hi⟩ := List.getElem?_eq_some_iff.1 hjob
    have hmem : (name, request, job) ∈ crew.jobs := List.mem_of_getElem? hjob
    obtain ⟨hshows, hclasspath, hkept⟩ := Job.step_shows (h.shows _ hmem) h.classpath
    have hnames : (crew.jobs.map Prod.fst).Nodup := by
      rwa [← h.entries, List.map_map] at hdistinct
    have hdue : name ∈ due.map Prod.fst := by
      rw [← h.entries, List.map_map]
      exact List.mem_map_of_mem hmem
    refine ⟨?_, hclasspath, fun e he => ?_, fun n hn => ?_⟩
    · have hlt : i < (crew.jobs.map fun e => (e.1, e.2.1)).length := by simpa using hlt
      have hentry : (crew.jobs.map fun e => (e.1, e.2.1)).get ⟨i, hlt⟩ = (name, request) := by
        simp [hi]
      rw [← h.entries, List.map_set, ← hentry]
      exact List.set_getElem_self _
    · obtain ⟨j, hj, rfl⟩ := List.mem_iff_getElem.1 he
      rw [List.getElem_set]
      rw [List.length_set] at hj
      split
      · exact hshows
      · next hne =>
        -- Another job has another name, and finds there what it found before.
        have hother : crew.jobs[j].1 ≠ name := by
          intro heq
          have hlt : i < (crew.jobs.map Prod.fst).length := by simpa using hlt
          refine hne ((List.getElem?_inj hlt hnames).1 ?_)
          rw [List.getElem?_map, List.getElem?_map, hjob, List.getElem?_eq_getElem hj]
          exact congrArg some heq.symm
        rw [hkept _ hother]
        exact h.shows _ (List.getElem_mem hj)
    · have hne : n ≠ name := by
        rintro rfl
        exact hn hdue
      exact (hkept n hne).trans (h.kept n hn)

/-- A run keeps it, whoever has the turns. -/
theorem underway_run (c₀ : Catalog) (hdistinct : (due.map Prod.fst).Nodup) (turns : List Nat) :
    ((c₀.crew due).run turns).Underway c₀ due :=
  List.foldlRecOn (motive := Underway c₀ due) turns turn (underway_crew c₀ due)
    fun _ h i _ => h.turn hdistinct i

/-! ### The end of a wave -/

/-- A turn keeps the number of jobs. -/
theorem length_jobs_turn (crew : Crew) (i : Nat) :
    (crew.turn i).jobs.length = crew.jobs.length := by
  unfold turn
  split
  · rfl
  · exact List.length_set

/-- A run keeps the number of jobs. -/
theorem length_jobs_run (crew : Crew) (turns : List Nat) :
    (crew.run turns).jobs.length = crew.jobs.length := by
  refine List.foldlRecOn (motive := fun e : Crew => e.jobs.length = crew.jobs.length) turns turn
    rfl fun e he i _ => ?_
  rw [length_jobs_turn, he]

/-- A job may take a step less after its turn. -/
theorem left_turn {i j k : Nat} (h : ∀ e ∈ crew.jobs[i]?, e.2.2.left ≤ k + [j].count i) :
    ∀ e ∈ (crew.turn j).jobs[i]?, e.2.2.left ≤ k := by
  rw [List.count_singleton] at h
  unfold turn
  split
  -- A turn of a job that does not exist changes nothing.
  · next hnone =>
    intro e he
    have hne : j ≠ i := by
      rintro rfl
      rw [hnone] at he
      cases he
    simpa [hne] using h e he
  · next name request job hjob =>
    intro e he
    rw [Option.mem_def, List.getElem?_set] at he
    split at he
    -- The turn is that of job `i`, or of another one.
    · next heq =>
      subst heq
      have hleft := h _ hjob
      have hstep := Job.left_step crew.catalog name request.required job
      split at he
      · cases he
        simp only [beq_self_eq_true, if_true] at hleft
        dsimp only at hleft ⊢
        omega
      · cases he
    · next hne => simpa [hne] using h e he

/-- A job that has as many turns as it may take steps is done. -/
theorem left_run {i k : Nat} (turns : List Nat)
    (h : ∀ e ∈ crew.jobs[i]?, e.2.2.left ≤ k + turns.count i) :
    ∀ e ∈ (crew.run turns).jobs[i]?, e.2.2.left ≤ k := by
  induction turns generalizing crew with
  | nil => exact h
  | cons j rest ih =>
    -- The first turn takes a step of its job, the rest of the turns is left for the rest.
    show ∀ e ∈ ((crew.turn j).run rest).jobs[i]?, e.2.2.left ≤ k
    refine ih (left_turn fun e he => ?_)
    have hleft := h e he
    rw [List.count_cons] at hleft
    rw [List.count_singleton]
    omega

/-- Three turns for each job are enough. -/
theorem finished_run (c₀ : Catalog) {turns : List Nat}
    (h : ∀ i < due.length, 3 ≤ turns.count i) : ((c₀.crew due).run turns).Finished := by
  intro e he
  obtain ⟨i, hlt, hi⟩ := List.mem_iff_getElem.1 he
  have hi : ((c₀.crew due).run turns).jobs[i]? = some e := by rw [List.getElem?_eq_getElem hlt, hi]
  rw [length_jobs_run, Catalog.crew, List.length_map] at hlt
  have hleft := left_run (k := 0) turns (fun e he => ?_) e hi
  -- No step is left, so there is a result.
  · exact Job.result?_of_left_eq_zero (by omega)
  · obtain ⟨entry, -, rfl⟩ := List.mem_map.1 (List.mem_of_getElem? he)
    have hcount := h i hlt
    dsimp only [Job.left]
    omega

/-- A finished crew has loaded each class as if alone. -/
theorem Underway.done (h : crew.Underway c₀ due) (hfinished : crew.Finished)
    {e : String × Request × Job} (he : e ∈ crew.jobs) :
    e.2.2 = .done (c₀.fetch e.1 e.2.1.required).1 ∧
      crew.catalog.get? e.1 = (c₀.fetch e.1 e.2.1.required).2.get? e.1 := by
  have hshows := h.shows e he
  have hdone := hfinished e he
  obtain ⟨name, request, job⟩ := e
  dsimp only at hshows hdone ⊢
  -- What the catalog shows is an index of `Shows`, so it is made a variable.
  generalize crew.catalog.get? name = shown at hshows
  cases hshows with
  | done => exact ⟨rfl, rfl⟩
  | waiting | looking | committing => cases hdone

end Crew

/-! ### One class after the other -/

/-- What comes of loading a class depends on what is registered under its name, and on the
classpath. -/
theorem fetch_congr (hget : c.get? name = c₀.get? name) (hclasspath : c.classpath = c₀.classpath)
    (required : Bool) :
    (c.fetch name required).1 = (c₀.fetch name required).1 ∧
      (c.fetch name required).2.get? name = (c₀.fetch name required).2.get? name := by
  -- The two catalogs agree on the name, so both know it or neither does.
  have hcontains : c.contains name = c₀.contains name := by
    rw [Bool.eq_iff_iff, contains_iff, contains_iff, hget]
  rw [fetch_eq, fetch_eq, hcontains, find_congr hclasspath]
  split
  · exact ⟨rfl, hget⟩
  split
  · exact ⟨rfl, hget⟩
  · next found hfind =>
    have hname := name_of_find hfind
    refine ⟨?_, by rw [get?_register, get?_register, hget]⟩
    rw [register_eq_commit, register_eq_commit, commit, commit, hname, hget]
    cases found with
    | gap => rfl
    | entry => cases c₀.get? name <;> rfl

/-- What comes of a wave whose classes are loaded one after the other: each as if it were the
first. -/
structure Apart (c₀ : Catalog) (due : List (String × Request))
    (outcomes : List (String × Request × FetchResult)) (c : Catalog) : Prop where
  outcomes : outcomes = due.map fun e => (e.1, e.2, (c₀.fetch e.1 e.2.required).1)
  classpath : c.classpath = c₀.classpath
  fetched : ∀ e ∈ due, c.get? e.1 = (c₀.fetch e.1 e.2.required).2.get? e.1
  kept : ∀ n, n ∉ due.map Prod.fst → c.get? n = c₀.get? n

/-- Fetching the wave in order is fetching each of its names from `c₀`. -/
theorem apart_fetchWave (c₀ : Catalog) {due : List (String × Request)}
    (hdistinct : (due.map Prod.fst).Nodup) :
    c₀.Apart due (c₀.fetchWave due).1 (c₀.fetchWave due).2 := by
  induction due generalizing c₀ with
  | nil => exact ⟨rfl, rfl, by simp, fun _ _ => rfl⟩
  | cons e rest ih =>
    obtain ⟨name, request⟩ := e
    obtain ⟨hname, hdistinct⟩ := List.nodup_cons.1 hdistinct
    obtain ⟨houtcomes, hclasspath, hfetched, hkept⟩ := ih (c₀.fetch name request.required).2 hdistinct
    rw [classpath_fetch] at hclasspath
    -- The others find under their names what was there before the first.
    have hfirst (e : String × Request) (he : e ∈ rest) :
        ((c₀.fetch name request.required).2.fetch e.1 e.2.required).1 =
            (c₀.fetch e.1 e.2.required).1 ∧
          ((c₀.fetch name request.required).2.fetch e.1 e.2.required).2.get? e.1 =
            (c₀.fetch e.1 e.2.required).2.get? e.1 := by
      have hmem : e.1 ∈ rest.map Prod.fst := List.mem_map_of_mem he
      have hne : e.1 ≠ name := by
        rintro rfl
        exact hname hmem
      exact fetch_congr (get?_fetch_of_ne hne _) (classpath_fetch c₀ name _) e.2.required
    rw [fetchWave_cons]
    refine ⟨?_, hclasspath, fun e he => ?_, fun n hn => ?_⟩
    · refine congrArg (List.cons (name, request, (c₀.fetch name request.required).1)) ?_
      rw [houtcomes]
      exact List.map_congr_left fun e he => by rw [(hfirst e he).1]
    · rcases List.mem_cons.1 he with rfl | he
      · exact hkept name hname
      · exact (hfetched e he).trans (hfirst e he).2
    · rw [List.map_cons, List.mem_cons, not_or] at hn
      exact (hkept n hn.2).trans (get?_fetch_of_ne hn.1 _)

/-- The jobs of a wave come to what loading one class after the other comes to. -/
theorem Crew.Underway.same {crew : Crew} {due : List (String × Request)}
    (h : crew.Underway c₀ due) (hdistinct : (due.map Prod.fst).Nodup)
    (hfinished : crew.Finished) : crew.outcomes = (c₀.fetchWave due).1 ∧
      crew.catalog.Same (c₀.fetchWave due).2 := by
  have hwave := c₀.apart_fetchWave hdistinct
  have hentry (e : String × Request) : e ∈ due ↔ ∃ job, (e.1, e.2, job) ∈ crew.jobs := by
    simp [← h.entries, Prod.ext_iff]
  constructor
  -- Each job has the result of a fetch from `c₀`, and the jobs stand in the order of the wave.
  · rw [hwave.outcomes, ← h.entries, List.map_map, ← List.filterMap_eq_map, Crew.outcomes]
    refine List.filterMap_congr fun e he => ?_
    obtain ⟨hjob, -⟩ := h.done hfinished he
    obtain ⟨name, request, job⟩ := e
    dsimp only at hjob
    rw [hjob]
    rfl
  · refine .of_get?_eq (fun n => ?_) fun n => by rw [h.classpath, hwave.classpath]
    -- A name of the wave has what its job shows, any other is as before.
    by_cases hn : n ∈ due.map Prod.fst
    · obtain ⟨e, he, rfl⟩ := List.mem_map.1 hn
      obtain ⟨job, hjob⟩ := (hentry e).1 he
      rw [hwave.fetched e he, (h.done hfinished hjob).2]
    · rw [h.kept n hn, hwave.kept n hn]

/-! ### Wave after wave -/

namespace Loading

/-- The jobs of the next wave after their turns. -/
def crewAfter (s : Loading) (turns : List Nat) : Crew :=
  (s.catalog.crew s.due.toList).run turns

/-- For each wave turns that finish its jobs. -/
structure Schedule where
  turns : Loading → List Nat
  finished : ∀ s : Loading, (s.crewAfter (turns s)).Finished

/-- The jobs take their turns in rounds. -/
def Schedule.rounds : Schedule where
  turns s := (List.replicate 3 (List.range s.due.toList.length)).flatten
  finished s := by
    refine Crew.finished_run s.catalog fun i hi => ?_
    have hcount : (List.range s.due.toList.length).count i = 1 :=
      List.count_eq_one_of_mem List.nodup_range (List.mem_range.2 hi)
    simp only [List.replicate, List.flatten_cons, List.flatten_nil, List.count_append,
      List.count_nil, hcount, Nat.le_refl]

/-- How far loading has come after one more wave with a schedule, where something is due. -/
def Schedule.next (schedule : Schedule) (s : Loading) : Option Loading :=
  if s.due.isEmpty then none
  else
    let crew := s.crewAfter (schedule.turns s)
    let (report, due) := crew.outcomes.foldl crew.catalog.note (s.report, {})
    some { catalog := crew.catalog, report, due }

/-- Loading has come as far, as far as can be told from what the catalogs hold. -/
structure Same (s s' : Loading) : Prop where
  catalog : s.catalog.Same s'.catalog
  report : s.report = s'.report
  due : s.due = s'.due

variable {s s' t : Loading}

/-- A wave comes to the same with a schedule and without one. -/
theorem Same.next (h : s.Same s') (schedule : Schedule) :
    (s.next = none ∧ schedule.next s' = none) ∨
      ∃ t t', s.next = some t ∧ schedule.next s' = some t' ∧ t.Same t' := by
  obtain ⟨catalog, report, due⟩ := s
  obtain ⟨catalog', report', due'⟩ := s'
  obtain ⟨hcatalog, rfl, rfl⟩ := h
  unfold Loading.next Schedule.next
  dsimp only
  split
  · exact .inl ⟨rfl, rfl⟩
  · refine .inr ⟨_, _, rfl, rfl, ?_⟩
    -- The crew of the schedule does what fetching in order does.
    obtain ⟨houtcomes, hsame⟩ := (Crew.underway_run catalog' (nodup_names_toList _) _).same
      (nodup_names_toList _) (schedule.finished ⟨catalog', report, due⟩)
    obtain ⟨hwave, hcatalogs⟩ := hcatalog.fetchWave due.toList
    have hsame := hcatalogs.trans hsame.symm
    have houtcomes := hwave.trans houtcomes.symm
    have hnotes := congrArg₂ (fun outcomes note => List.foldl note (report, {}) outcomes)
      houtcomes hsame.note_eq
    exact ⟨hsame, congrArg Prod.fst hnotes, congrArg Prod.snd hnotes⟩

/-- So do all waves. -/
theorem endsAt_schedule (hends : EndsAt Loading.next s t) (h : s.Same s') (schedule : Schedule) :
    ∃ t', EndsAt schedule.next s' t' ∧ t.Same t' :=
  hends.simulate (R := Same) (fun _ _ hsame => hsame.next schedule) h

end Loading

/-- The schedule makes no difference to loading. In a wave it makes none to what comes of each job
and to what is registered in the end, wherever loading has come to; and with any schedule loading
comes to an end, the report is the same, and so is what the catalog holds. -/
theorem loadNeeded_of_schedule (c : Catalog) :
    (∀ (s : Loading) (turns : List Nat),
      ((∀ i < s.due.toList.length, 3 ≤ turns.count i) → (s.crewAfter turns).Finished) ∧
      ((s.crewAfter turns).Finished →
        (s.crewAfter turns).outcomes = (s.catalog.fetchWave s.due.toList).1 ∧
        (s.crewAfter turns).catalog.Same (s.catalog.fetchWave s.due.toList).2)) ∧
    ∀ schedule : Loading.Schedule, ∃ s, EndsAt schedule.next c.loading s ∧
      s.report = c.loadNeeded.1 ∧ s.catalog.Same c.loadNeeded.2 := by
  constructor
  · intro s turns
    refine ⟨fun h => Crew.finished_run s.catalog h, fun hfinished => ?_⟩
    have hdistinct := Loading.nodup_names_toList s
    exact (Crew.underway_run s.catalog hdistinct turns).same hdistinct hfinished
  · intro schedule
    obtain ⟨s, hends, hloaded⟩ := endsAt_loadNeeded c
    obtain ⟨s', hends', hsame⟩ :=
      -- Both loadings begin with the same contents and go on wave by wave.
      Loading.endsAt_schedule hends ⟨.refl _, rfl, rfl⟩ schedule
    rw [hloaded]
    exact ⟨s', hends', hsame.report.symm, hsame.catalog.symm⟩

/-! ### Two jobs -/

/-- A class that the classpath holds under its name is loaded. -/
theorem fetch_of_found {found : LocatedClass} {shape : ClassShape} (hnew : ¬ c.contains name)
    (hfound : c.classpath[name]? = some found)
    (hdecode : ClassShape.decode found.bytes .classpath = .ok shape) (hname : shape.name = name)
    (required : Bool) : (c.fetch name required).1 = .loaded shape ∧
      (c.fetch name required).2.get? name = some shape := by
  obtain ⟨hfetched, -, hget⟩ := fetches_fetch hnew required
  rw [hget, if_pos rfl]
  generalize (c.fetch name required).1 = result at hfetched ⊢
  -- The classpath has one entry, and its shape has the right name, which leaves one case.
  cases hfetched with
  | loaded hfound' hdecode' =>
    obtain rfl := Option.some.inj (hfound.symm.trans hfound')
    obtain rfl := Except.ok.inj (hdecode.symm.trans hdecode')
    exact ⟨rfl, rfl⟩
  | failed hfound' hbad =>
    obtain rfl := Option.some.inj (hfound.symm.trans hfound')
    exact absurd hname (hbad _ hdecode)
  | skipped hnone | missing hnone => cases hfound.symm.trans hnone

/-- A class that must exist and is nowhere is missing, and has a stand-in. -/
theorem fetch_of_missing (hnew : ¬ c.contains name) (hnone : c.classpath[name]? = none) :
    (c.fetch name true).1 = .missing ∧
      (c.fetch name true).2.get? name = some (.standIn name .unresolved) := by
  obtain ⟨hfetched, -, hget⟩ := fetches_fetch hnew true
  rw [hget, if_pos rfl]
  generalize (c.fetch name true).1 = result at hfetched ⊢
  cases hfetched with
  | missing => exact ⟨rfl, rfl⟩
  | skipped _ hoptional => exact absurd rfl hoptional
  | loaded hfound | failed hfound => cases hnone.symm.trans hfound

/-- A root with `A` of the classpath and the missing `M` for supertypes. -/
def heirRoot : ClassShape :=
  { name := "B", access := ⟨0x21⟩, superName := some "A", interfaces := ["M"], origin := .input }

/-- The catalog of that root. -/
def heirCatalog : Catalog :=
  ofRoots [baseEntry] [heirRoot]

/-- Its two supertypes are due. -/
theorem toList_due_heirCatalog :
    heirCatalog.loading.due.toList = [("A", ⟨true, "B"⟩), ("M", ⟨true, "B"⟩)] :=
  rfl

theorem getElem?_heirCatalog (n : String) :
    heirCatalog.classpath[n]? = [baseEntry].find? (·.name = n) := by
  rw [heirCatalog, ofRoots, classpath_foldl_register, getElem?_ofClasspath]

/-- Only the heir is known before the loading. -/
theorem not_contains_heirCatalog (hn : n ≠ "B") : ¬ heirCatalog.contains n := by
  intro hold
  obtain ⟨shape, hshape⟩ := contains_iff.1 hold
  obtain ⟨hmem, rfl⟩ := (get?_ofRoots (List.pairwise_singleton _ _)).1 hshape
  exact hn (List.mem_singleton.1 hmem ▸ rfl)

/-- What comes of the one wave of that catalog: `A` is loaded, and there is a stand-in for `M`. -/
theorem fetchWave_heirCatalog :
    (heirCatalog.fetchWave heirCatalog.loading.due.toList).1 =
        [("A", ⟨true, "B"⟩, .loaded loadedBase), ("M", ⟨true, "B"⟩, .missing)] ∧
      (heirCatalog.fetchWave heirCatalog.loading.due.toList).2.get? "A" = some loadedBase ∧
      (heirCatalog.fetchWave heirCatalog.loading.due.toList).2.get? "M" =
        some (.standIn "M" .unresolved) := by
  obtain ⟨houtcomes, -, hfetched, -⟩ :=
    apart_fetchWave heirCatalog (Loading.nodup_names_toList heirCatalog.loading)
  obtain ⟨hbase, hget⟩ := fetch_of_found (not_contains_heirCatalog (by decide))
    (getElem?_heirCatalog "A") decode_baseEntry rfl true
  obtain ⟨hgap, hget'⟩ := fetch_of_missing (not_contains_heirCatalog (by decide))
    (getElem?_heirCatalog "M")
  -- The outcomes are those of the two names for themselves.
  rw [toList_due_heirCatalog] at houtcomes hfetched ⊢
  refine ⟨?_, ?_, ?_⟩
  · simp only [houtcomes, List.map_cons, List.map_nil, hbase, hgap]
  · exact (hfetched ("A", ⟨true, "B"⟩) (by decide)).trans hget
  · exact (hfetched ("M", ⟨true, "B"⟩) (by decide)).trans hget'

/-- The jobs for `A` and `M` may take their steps by turns, or one step each in every round: `A` is
loaded, and `M` is missing. -/
theorem loadNeeded_of_schedule_heirRoot :
    heirCatalog.loading.due.toList.length = 2 ∧
      (heirCatalog.loading.crewAfter [1, 0, 0, 1, 1, 0]).Finished ∧
      (heirCatalog.loading.crewAfter [1, 0, 0, 1, 1, 0]).outcomes =
        [("A", ⟨true, "B"⟩, .loaded loadedBase), ("M", ⟨true, "B"⟩, .missing)] ∧
      (heirCatalog.loading.crewAfter [1, 0, 0, 1, 1, 0]).catalog.get? "A" = some loadedBase ∧
      (heirCatalog.loading.crewAfter [1, 0, 0, 1, 1, 0]).catalog.get? "M" =
        some (.standIn "M" .unresolved) ∧
      ∃ s, EndsAt Loading.Schedule.rounds.next heirCatalog.loading s ∧
        s.report = heirCatalog.loadNeeded.1 ∧ s.catalog.Same heirCatalog.loadNeeded.2 := by
  obtain ⟨hwave, hschedule⟩ := loadNeeded_of_schedule heirCatalog
  obtain ⟨hends, hsame⟩ := hwave heirCatalog.loading [1, 0, 0, 1, 1, 0]
  -- Each job has three turns.
  have hfinished := hends (by rw [toList_due_heirCatalog]; decide)
  obtain ⟨houtcomes, hcatalog⟩ := hsame hfinished
  obtain ⟨hresults, hbase, hgap⟩ := fetchWave_heirCatalog
  exact ⟨by rw [toList_due_heirCatalog]; rfl, hfinished, houtcomes.trans hresults,
    (hcatalog.get?_eq "A").trans hbase, (hcatalog.get?_eq "M").trans hgap,
    hschedule Loading.Schedule.rounds⟩

end Relabel.Catalog
