import Relabel.Proofs.Catalog.FromRoots

/-!
# Catalogs with the same contents

Two catalogs that were filled in different orders need not be built alike, but they give the same
answer to every question. All that loading looks at are such answers, so it reports the same of both
and leaves them with the same contents.

## Main results

- `Catalog.Same.classes_eq`: the classes in the order of their names are equal lists.
- `Catalog.Same.fetch`, `Catalog.Same.fetchWave`: one class and one wave.
- `Catalog.Same.loadNeeded`, `Catalog.Same.fillGaps`: all waves, and what follows them.
-/

namespace Relabel.Catalog

/-- Two catalogs hold the same classes, and have classpaths that hold the same entries. -/
structure Same (c c' : Catalog) : Prop where
  shapes : c.shapes.Equiv c'.shapes
  classpath : c.classpath.Equiv c'.classpath

namespace Same

variable {c c' c'' : Catalog} {n : String}

theorem refl (c : Catalog) : c.Same c :=
  ⟨.rfl, .rfl⟩

theorem symm (h : c.Same c') : c'.Same c :=
  ⟨h.shapes.symm, h.classpath.symm⟩

theorem trans (h : c.Same c') (h' : c'.Same c'') : c.Same c'' :=
  ⟨h.shapes.trans h'.shapes, h.classpath.trans h'.classpath⟩

/-- Catalogs that give the same answers have the same contents. -/
theorem of_get?_eq (hget : ∀ n : String, c.get? n = c'.get? n)
    (hclasspath : ∀ n : String, c.classpath[n]? = c'.classpath[n]?) : c.Same c' :=
  ⟨.of_forall_constGet?_eq hget, .of_forall_getElem?_eq hclasspath⟩

/-! ### Answers -/

theorem get?_eq (h : c.Same c') (n : String) : c.get? n = c'.get? n :=
  h.shapes.getElem?_eq

theorem contains_eq (h : c.Same c') (n : String) : c.contains n = c'.contains n :=
  h.shapes.contains_eq

theorem classpath_eq (h : c.Same c') (n : String) : c.classpath[n]? = c'.classpath[n]? :=
  h.classpath.getElem?_eq

theorem classes_eq (h : c.Same c') : c.classes = c'.classes := by
  rw [classes, h.shapes.toList_eq, classes]

/-- What is due by way of a class depends on which classes are registered, and on nothing else of
the catalog. -/
theorem request_eq (h : c.Same c') : c.request = c'.request := by
  funext referencedBy required due name
  simp only [request, h.contains_eq]

theorem requestFor_eq (h : c.Same c') : c.requestFor = c'.requestFor := by
  funext due shape
  simp only [requestFor, h.request_eq]

/-- What is noted of an outcome depends on the contents only. -/
theorem note_eq (h : c.Same c') : c.note = c'.note := by
  funext ⟨report, next⟩ ⟨name, request, result⟩
  cases result with
  | loaded shape => simp only [note, h.requestFor_eq]
  | missing | skipped | failed => rfl

/-! ### Changes -/

theorem put (h : c.Same c') (shape : ClassShape) : (c.put shape).Same (c'.put shape) :=
  ⟨h.shapes.insert shape.name shape, h.classpath⟩

/-- A shape registered in both has one outcome and keeps the contents the same. -/
theorem register (h : c.Same c') (shape : ClassShape) :
    (c.register shape).shape = (c'.register shape).shape ∧
      (c.register shape).isNew = (c'.register shape).isNew ∧
      (c.register shape).catalog.Same (c'.register shape).catalog := by
  simp only [register_eq_commit, commit, h.get?_eq]
  cases c'.get? shape.name with
  | some existing => exact ⟨rfl, rfl, h⟩
  | none => exact ⟨rfl, rfl, h.put shape⟩

/-- A class fetched in both has one result and keeps the contents the same. -/
theorem fetch (h : c.Same c') (name : String) (required : Bool) :
    (c.fetch name required).1 = (c'.fetch name required).1 ∧
      (c.fetch name required).2.Same (c'.fetch name required).2 := by
  -- Known already, missing, or an entry of the classpath that does or does not hold the class.
  simp only [Catalog.fetch, h.contains_eq, h.classpath_eq]
  split
  · exact ⟨rfl, h⟩
  cases c'.classpath[name]? with
  | none =>
    dsimp only
    split
    · exact ⟨rfl, (h.register _).2.2⟩
    · exact ⟨rfl, h⟩
  | some found =>
    dsimp only
    cases ClassShape.decode found.bytes .classpath with
    | error e => exact ⟨rfl, h⟩
    | ok shape =>
      obtain ⟨hshape, hnew, hsame⟩ := h.register shape
      dsimp only
      split
      · rw [hshape, hnew]
        exact ⟨rfl, hsame⟩
      · exact ⟨rfl, h⟩

/-- A wave fetched in both has the same outcomes and keeps the contents the same. -/
theorem fetchWave (h : c.Same c') (due : List (String × Request)) :
    (c.fetchWave due).1 = (c'.fetchWave due).1 ∧
      (c.fetchWave due).2.Same (c'.fetchWave due).2 := by
  induction due generalizing c c' with
  | nil => exact ⟨rfl, h⟩
  | cons entry rest ih =>
    obtain ⟨name, request⟩ := entry
    obtain ⟨hresult, hsame⟩ := h.fetch name request.required
    obtain ⟨houtcomes, hend⟩ := ih hsame
    simp only [fetchWave_cons, hresult, houtcomes]
    exact ⟨trivial, hend⟩

/-- Wave after wave, catalogs with the same contents are reported on alike. -/
theorem fetchFrom (h : c.Same c') (fuel : Nat) (report : LoadReport) (due : Requests) :
    (fetchFrom fuel c report due).1 = (fetchFrom fuel c' report due).1 ∧
      (Catalog.fetchFrom fuel c report due).2.Same (Catalog.fetchFrom fuel c' report due).2 := by
  induction fuel generalizing c c' report due with
  | zero => exact ⟨rfl, h⟩
  | succ fuel ih =>
    obtain ⟨houtcomes, hsame⟩ := h.fetchWave due.toList
    simp only [Catalog.fetchFrom]
    split
    · exact ⟨rfl, h⟩
    · rw [houtcomes, hsame.note_eq]
      exact ih hsame _ _

/-- Loading what is needed has the same report and keeps the contents the same. -/
theorem loadNeeded (h : c.Same c') :
    c.loadNeeded.1 = c'.loadNeeded.1 ∧ c.loadNeeded.2.Same c'.loadNeeded.2 := by
  simp only [Catalog.loadNeeded, h.classpath.size_eq, h.classes_eq, h.requestFor_eq]
  exact h.fetchFrom _ _ _

/-- Filling gaps puts stand-ins into the catalog, each under the name of its gap. -/
theorem fillGaps (h : c.Same c') (unresolved : Std.TreeMap String String)
    (resolveMissing : Bool) :
    (c.fillGaps unresolved resolveMissing).1 = (c'.fillGaps unresolved resolveMissing).1 ∧
      (c.fillGaps unresolved resolveMissing).2.Same (c'.fillGaps unresolved resolveMissing).2 := by
  -- The list of problems is carried along, so the induction is for any list.
  have hfold (entries : List (String × String)) (problems : List Problem) :
      (entries.foldl (fillGap resolveMissing) (problems, c)).1 =
          (entries.foldl (fillGap resolveMissing) (problems, c')).1 ∧
        (entries.foldl (fillGap resolveMissing) (problems, c)).2.Same
          (entries.foldl (fillGap resolveMissing) (problems, c')).2 := by
    induction entries generalizing c c' problems with
    | nil => exact ⟨rfl, h⟩
    | cons entry rest ih =>
      simp only [List.foldl_cons, fillGap]
      split
      · exact ih (h.put _) problems
      · exact ih h _
  obtain ⟨hproblems, hsame⟩ := hfold unresolved.toList []
  rw [fillGaps_eq, fillGaps_eq]
  exact ⟨congrArg List.reverse hproblems, hsame⟩

end Same

end Relabel.Catalog
