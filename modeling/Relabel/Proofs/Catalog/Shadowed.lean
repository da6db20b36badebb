import Mathlib.Logic.Relation
import Relabel.Proofs.Catalog.Contents
import Relabel.Proofs.Catalog.Schedules

/-!
# Entries of the classpath that are never read

A registered class shadows the entry of the classpath that has its name: only names that are not
registered are due, and a class stays registered. Two classpaths that differ in shadowed entries
only are therefore loaded from alike, whatever those entries hold.

## Main results

- `Catalog.Agree.fetchWave`, `Catalog.Loading.Agree.next`: what a wave keeps.
- `Catalog.Agree.loadNeeded`, `Catalog.Agree.fillGaps`: all waves, and what follows them.
- `Catalog.Underway.not_mem_due`: a class registered at the start is never due.
-/

namespace Relabel.Catalog

/-- Two catalogs hold the same classes, and their classpaths differ at most in shadowed entries. -/
structure Agree (c c' : Catalog) : Prop where
  shapes : c.shapes = c'.shapes
  visible : ∀ n : String, ¬ c.contains n → c.classpath[n]? = c'.classpath[n]?

namespace Agree

variable {c c' : Catalog}

/-! ### Answers -/

theorem get?_eq (h : c.Agree c') : c.get? = c'.get? := by
  funext n
  rw [get?, h.shapes, get?]

theorem contains_eq (h : c.Agree c') : c.contains = c'.contains := by
  funext n
  rw [contains, h.shapes, contains]

theorem classes_eq (h : c.Agree c') : c.classes = c'.classes := by
  rw [classes, h.shapes, classes]

/-- Catalogs that agree ask for the same names. -/
theorem requestFor_eq (h : c.Agree c') : c.requestFor = c'.requestFor := by
  funext due shape
  have hrequest : c.request = c'.request := by
    funext referencedBy required due name
    rw [request, h.contains_eq, request]
  rw [requestFor, hrequest, requestFor]

/-- Catalogs that agree note the same of an outcome. -/
theorem note_eq (h : c.Agree c') : c.note = c'.note := by
  funext ⟨report, next⟩ ⟨name, request, result⟩
  cases result with
  | loaded shape => rw [note, h.requestFor_eq, note]
  | missing | skipped | failed => rfl

/-! ### Changes -/

/-- Registering a class does not look at the classpath. -/
theorem shapes_register (h : c.shapes = c'.shapes) (shape : ClassShape) :
    (c.register shape).catalog.shapes = (c'.register shape).catalog.shapes := by
  rw [register_eq_commit, register_eq_commit, commit, commit, Catalog.get?, Catalog.get?, h]
  split
  · exact h
  · rw [Catalog.put, Catalog.put, h]

/-- Registering roots does not look at the classpath. -/
theorem shapes_foldl_register (h : c.shapes = c'.shapes) (shapes : List ClassShape) :
    (shapes.foldl (fun c shape => (c.register shape).catalog) c).shapes =
      (shapes.foldl (fun c shape => (c.register shape).catalog) c').shapes := by
  induction shapes generalizing c c' with
  | nil => exact h
  | cons shape rest ih => exact ih (shapes_register h shape)

/-- A shape put in both leaves them in agreement. -/
theorem put (h : c.Agree c') (shape : ClassShape) : (c.put shape).Agree (c'.put shape) where
  shapes := by rw [Catalog.put, Catalog.put, h.shapes]
  visible n hn := by
    -- A name that is free afterwards was free before.
    refine h.visible n fun hold => hn ?_
    obtain ⟨old, hget⟩ := contains_iff.1 hold
    rw [contains_iff, get?_put]
    split
    · exact ⟨shape, rfl⟩
    · exact ⟨old, hget⟩

/-- A shape registered in both has one outcome and leaves them in agreement. -/
theorem register (h : c.Agree c') (shape : ClassShape) :
    (c.register shape).shape = (c'.register shape).shape ∧
      (c.register shape).isNew = (c'.register shape).isNew ∧
      (c.register shape).catalog.Agree (c'.register shape).catalog := by
  simp only [register_eq_commit, commit, h.get?_eq]
  cases c'.get? shape.name with
  | some existing => exact ⟨rfl, rfl, h⟩
  | none => exact ⟨rfl, rfl, h.put shape⟩

/-- A class that is registered is not looked for, and any other is found alike. -/
theorem fetch (h : c.Agree c') (name : String) (required : Bool) :
    (c.fetch name required).1 = (c'.fetch name required).1 ∧
      (c.fetch name required).2.Agree (c'.fetch name required).2 := by
  rw [fetch_eq, fetch_eq, h.contains_eq]
  -- What is known already is not looked up, so the classpaths need not agree on it.
  by_cases hold : c'.contains name
  · rw [if_pos hold, if_pos hold]
    exact ⟨rfl, h⟩
  rw [if_neg hold, if_neg hold]
  have hfind : c.find name required = c'.find name required := by
    rw [find, h.visible name (by rwa [h.contains_eq]), find]
  rw [hfind]
  cases c'.find name required with
  | error result => exact ⟨rfl, h⟩
  | ok found =>
    obtain ⟨hshape, hnew, hagree⟩ := h.register found.shape
    refine ⟨?_, hagree⟩
    cases found with
    | entry shape => simp only [Find.result, hshape, hnew]
    | gap => rfl

/-- A wave fetched in both leaves them in agreement. -/
theorem fetchWave (h : c.Agree c') (due : List (String × Request)) :
    (c.fetchWave due).1 = (c'.fetchWave due).1 ∧
      (c.fetchWave due).2.Agree (c'.fetchWave due).2 := by
  induction due generalizing c c' with
  | nil => exact ⟨rfl, h⟩
  | cons entry rest ih =>
    obtain ⟨name, request⟩ := entry
    obtain ⟨hresult, hagree⟩ := h.fetch name request.required
    obtain ⟨houtcomes, hend⟩ := ih hagree
    simp only [fetchWave_cons, hresult, houtcomes]
    exact ⟨trivial, hend⟩

end Agree

/-! ### Wave after wave -/

/-- Loading has come as far, up to shadowed entries. -/
structure Loading.Agree (s s' : Loading) : Prop where
  catalog : s.catalog.Agree s'.catalog
  report : s.report = s'.report
  due : s.due = s'.due

/-- Loadings that agree end together, or go on in agreement. -/
theorem Loading.Agree.next {s s' : Loading} (h : s.Agree s') :
    (s.next = none ∧ s'.next = none) ∨
      ∃ t t', s.next = some t ∧ s'.next = some t' ∧ t.Agree t' := by
  obtain ⟨catalog, report, due⟩ := s
  obtain ⟨catalog', report', due'⟩ := s'
  obtain ⟨hcatalog, rfl, rfl⟩ := h
  obtain ⟨houtcomes, hagree⟩ := hcatalog.fetchWave due.toList
  unfold Loading.next
  dsimp only
  split
  · exact .inl ⟨rfl, rfl⟩
  · refine .inr ⟨_, _, rfl, rfl, hagree, ?_, ?_⟩
    · rw [houtcomes, hagree.note_eq]
    · rw [houtcomes, hagree.note_eq]

variable {c c' : Catalog}

/-- The numbers of waves that are allowed for may differ, but the waves come to an end by
themselves. -/
theorem Agree.loadNeeded (h : c.Agree c') :
    c.loadNeeded.1 = c'.loadNeeded.1 ∧ c.loadNeeded.2.Agree c'.loadNeeded.2 := by
  obtain ⟨s, hends, hloaded⟩ := endsAt_loadNeeded c
  obtain ⟨s', hends', hloaded'⟩ := endsAt_loadNeeded c'
  -- Both hold the same roots, which ask for the same classes.
  have hstart : c.loading.Agree c'.loading := by
    refine ⟨h, rfl, ?_⟩
    show c.classes.foldl c.requestFor {} = c'.classes.foldl c'.requestFor {}
    rw [h.classes_eq, h.requestFor_eq]
  obtain ⟨t, hends'', hagree⟩ := hends.simulate (fun _ _ => Loading.Agree.next) hstart
  obtain rfl := hends'.unique hends''
  rw [hloaded, hloaded']
  exact ⟨hagree.report, hagree.catalog⟩

/-- Gaps filled in both give the same problems and leave them in agreement. -/
theorem Agree.fillGaps (h : c.Agree c') (unresolved : Std.TreeMap String String)
    (resolveMissing : Bool) :
    (c.fillGaps unresolved resolveMissing).1 = (c'.fillGaps unresolved resolveMissing).1 ∧
      (c.fillGaps unresolved resolveMissing).2.Agree (c'.fillGaps unresolved resolveMissing).2 := by
  rw [fillGaps_eq, fillGaps_eq]
  generalize unresolved.toList = entries
  -- The list of problems is carried along, so the induction is for any list.
  suffices hfold : ∀ problems : List Problem,
      (entries.foldl (fillGap resolveMissing) (problems, c)).1 =
          (entries.foldl (fillGap resolveMissing) (problems, c')).1 ∧
        (entries.foldl (fillGap resolveMissing) (problems, c)).2.Agree
          (entries.foldl (fillGap resolveMissing) (problems, c')).2 by
    obtain ⟨hproblems, hagree⟩ := hfold []
    exact ⟨congrArg List.reverse hproblems, hagree⟩
  intro problems
  induction entries generalizing c c' problems with
  | nil => exact ⟨rfl, h⟩
  | cons entry rest ih =>
    simp only [List.foldl_cons, fillGap]
    split
    · exact ih (h.put _) problems
    · exact ih h _

/-! ### What is never due -/

variable {n : String} {s t : Loading}

/-- However far loading has come, it has kept to the waves. -/
theorem Underway.of_waves (h : c.Underway s)
    (hwaves : Relation.ReflTransGen (fun s s' => s.next = some s') s t) : c.Underway t := by
  induction hwaves with
  | refl => exact h
  | tail _ hnext ih =>
    obtain ⟨outcomes, hstep⟩ := Loading.exists_step ih.pending hnext
    exact ih.step hstep

/-- A class that is registered before loading is never due, and stays what it is. -/
theorem not_mem_due_of_waves
    (hwaves : Relation.ReflTransGen (fun s s' => s.next = some s') c.loading t)
    {shape : ClassShape} (hn : c.get? n = some shape) :
    n ∉ t.due ∧ t.catalog.get? n = some shape := by
  have hunderway := (underway_loading c).of_waves hwaves
  exact ⟨fun hdue => hunderway.new hdue (contains_iff.2 ⟨shape, hn⟩), hunderway.roots n shape hn⟩

end Relabel.Catalog
