import Mathlib.Data.List.Nodup
import Relabel.Proofs.Catalog.Contents
import Relabel.Proofs.Run.Outputs

/-!
# The order of inputs and of the classpath

Inputs of different classes, and entries of the classpath with different names, may come in any
order. The catalog then holds the same classes, so the run decides on equal graphs, and the outputs
are put in the order of their names.

## Main results

- `catalog_enrol`, `problems_enrol_eq_nil`, `accepted_enrol`: what becomes of the inputs.
- `Catalog.Same.ofRoots`: the catalog that a run starts with.
- `relabelAll_of_perm`: the outputs.
- `Session.run_of_perm`: a run that succeeds gives the same result with the inputs and the classpath
  in another order.
-/

namespace Relabel

variable {c : Catalog} {inputs inputs' : List LocatedClass}

/-! ### Enrolling -/

/-- An outcome is a value exactly where it is a success. -/
theorem toOption_eq_some {ε α : Type} {x : Except ε α} {a : α} :
    x.toOption = some a ↔ x = .ok a := by
  cases x <;> simp [Except.toOption]

/-- The classes that some sources hold. -/
def shapesOf (inputs : List LocatedClass) : List ClassShape :=
  inputs.filterMap fun source => (ClassShape.decode source.bytes .input).toOption

/-- Enrolling registers the classes of all sources that can be read. -/
theorem catalog_enrol (c : Catalog) (inputs : List LocatedClass) :
    (enrol c inputs).catalog =
      (shapesOf inputs).foldl (fun c shape => (c.register shape).catalog) c := by
  induction inputs generalizing c with
  | nil => rfl
  | cons source rest ih =>
    cases hdecode : ClassShape.decode source.bytes .input with
    | error e =>
      have hshapes : shapesOf (source :: rest) = shapesOf rest := by
        simp [shapesOf, hdecode, Except.toOption]
      simp only [enrol, hdecode, hshapes, ih]
    | ok shape =>
      have hshapes : shapesOf (source :: rest) = shape :: shapesOf rest := by
        simp [shapesOf, hdecode, Except.toOption]
      simp only [enrol, hdecode, hshapes, List.foldl_cons, ← ih]
      split <;> rfl

/-- There is no problem with the inputs when each of them can be read. -/
theorem problems_enrol_eq_nil (c : Catalog) (inputs : List LocatedClass) :
    (enrol c inputs).problems = [] ↔
      ∀ source ∈ inputs, ∃ shape, ClassShape.decode source.bytes .input = .ok shape := by
  induction inputs generalizing c with
  | nil => simp [enrol]
  | cons source rest ih =>
    rw [List.forall_mem_cons]
    cases hdecode : ClassShape.decode source.bytes .input with
    | error e => simp [enrol, hdecode]
    | ok shape =>
      simp only [enrol, hdecode, Except.ok.injEq, exists_eq', true_and]
      rw [← ih (c.register shape).catalog]
      split <;> rfl

/-- Sources with different names, each of which holds the class it is named after. -/
structure WellNamed (inputs : List LocatedClass) : Prop where
  names : (inputs.map (·.name)).Nodup
  holds : ∀ source ∈ inputs, source.bytes.Holds source.name

namespace WellNamed

/-- Inputs are well named in any order. -/
theorem of_perm (h : WellNamed inputs) (hperm : inputs.Perm inputs') : WellNamed inputs' where
  names := (hperm.map _).nodup_iff.1 h.names
  holds source hsource := h.holds source (hperm.mem_iff.2 hsource)

/-- A class has the name of the input that it comes from. -/
theorem name_of_decode (h : WellNamed inputs) {source : LocatedClass} (hsource : source ∈ inputs)
    {shape : ClassShape} (hdecode : ClassShape.decode source.bytes .input = .ok shape) :
    shape.name = source.name :=
  (ClassShape.holds_of_decode hdecode).unique (h.holds source hsource)

theorem of_cons {source : LocatedClass} (h : WellNamed (source :: inputs)) :
    source.name ∉ inputs.map (·.name) ∧ WellNamed inputs := by
  obtain ⟨hname, hnames⟩ := List.nodup_cons.1 h.names
  exact ⟨hname, hnames, fun other hother => h.holds other (List.mem_cons_of_mem _ hother)⟩

/-- The classes of such sources have different names. -/
theorem pairwise_shapesOf (h : WellNamed inputs) :
    (shapesOf inputs).Pairwise fun a b => a.name ≠ b.name := by
  have hnames : inputs.Pairwise fun a b => a.name ≠ b.name := List.pairwise_map.1 h.names
  refine (hnames.imp_of_mem (S := fun a b => a ∈ inputs ∧ b ∈ inputs ∧ a.name ≠ b.name)
    fun ha hb hne => ⟨ha, hb, hne⟩).filterMap _ ?_
  rintro a b ⟨ha, hb, hne⟩ shape hshape shape' hshape'
  rw [toOption_eq_some] at hshape hshape'
  rw [h.name_of_decode ha hshape, h.name_of_decode hb hshape']
  exact hne

/-- All such sources are accepted if they can be read and their names are free. -/
theorem accepted_enrol (h : WellNamed inputs)
    (hread : ∀ source ∈ inputs, ∃ shape, ClassShape.decode source.bytes .input = .ok shape)
    (hfree : ∀ source ∈ inputs, c.get? source.name = none) :
    (enrol c inputs).accepted = inputs ∧ (enrol c inputs).duplicates = [] := by
  induction inputs generalizing c with
  | nil => exact ⟨rfl, rfl⟩
  | cons source rest ih =>
    obtain ⟨hname, hrest⟩ := h.of_cons
    obtain ⟨⟨shape, hdecode⟩, hread⟩ := List.forall_mem_cons.1 hread
    obtain ⟨hnew, hfree⟩ := List.forall_mem_cons.1 hfree
    have hshape := h.name_of_decode List.mem_cons_self hdecode
    have hregister : c.register shape = ⟨shape, true, c.put shape⟩ :=
      Catalog.register_of_new (hshape ▸ hnew)
    -- The others have other names, which stay free.
    have hothers : ∀ other ∈ rest, (c.put shape).get? other.name = none := by
      intro other hother
      rw [Catalog.get?_put, if_neg, hfree other hother]
      intro heq
      have hmem : other.name ∈ rest.map (·.name) := List.mem_map_of_mem hother
      rw [← heq, hshape] at hmem
      exact hname hmem
    obtain ⟨haccepted, hduplicates⟩ := ih hrest hread hothers
    simp only [enrol, hdecode, hregister, if_true, haccepted, hduplicates, and_self]

end WellNamed

/-! ### The catalog at the start -/

/-- Where names are different the order of entries makes no difference to what has a name. -/
theorem find?_name_eq_some {found : List LocatedClass} (hnames : (found.map (·.name)).Nodup)
    {n : String} {entry : LocatedClass} :
    found.find? (·.name = n) = some entry ↔ entry ∈ found ∧ entry.name = n := by
  constructor
  · intro h
    have hname := List.find?_some h
    exact ⟨List.mem_of_find?_eq_some h, of_decide_eq_true hname⟩
  · rintro ⟨hentry, rfl⟩
    obtain ⟨first, hfirst⟩ := Option.isSome_iff_exists.1
      (List.find?_isSome (p := (·.name = entry.name)).2 ⟨entry, hentry, decide_eq_true rfl⟩)
    have hname := List.find?_some hfirst
    rw [hfirst, List.inj_on_of_nodup_map hnames (List.mem_of_find?_eq_some hfirst) hentry
      (of_decide_eq_true hname)]

/-- The classpath and the roots may come in any order. -/
theorem Catalog.Same.ofRoots {found found' : List LocatedClass} {roots roots' : List ClassShape}
    (hfound : found.Perm found') (hroots : roots.Perm roots')
    (hentries : (found.map (·.name)).Nodup)
    (hnames : roots.Pairwise fun a b => a.name ≠ b.name) :
    (Catalog.ofRoots found roots).Same (Catalog.ofRoots found' roots') := by
  -- Roots are found by their shape and classpath entries by their name, and neither depends on the
  -- order.
  refine .of_get?_eq (fun n => ?_) fun n => ?_
  · have hnames' := (hroots.pairwise_iff Ne.symm).1 hnames
    ext shape
    rw [get?_ofRoots hnames, get?_ofRoots hnames', hroots.mem_iff]
  · have hentries' := (hfound.map _).nodup_iff.1 hentries
    ext entry
    rw [Catalog.ofRoots, Catalog.ofRoots, classpath_foldl_register, classpath_foldl_register,
      getElem?_ofClasspath, getElem?_ofClasspath, find?_name_eq_some hentries,
      find?_name_eq_some hentries', hfound.mem_iff]

/-- So may the inputs, as long as these are named after the classes they hold. -/
theorem same_enrol {classpath classpath' : List LocatedClass} (hinputs : inputs.Perm inputs')
    (hclasspath : classpath.Perm classpath') (hnamed : WellNamed inputs)
    (hentries : (classpath.map (·.name)).Nodup) :
    (enrol (.ofClasspath classpath) inputs).catalog.Same
      (enrol (.ofClasspath classpath') inputs').catalog := by
  rw [catalog_enrol, catalog_enrol]
  exact .ofRoots hclasspath (hinputs.filterMap _) hentries hnamed.pairwise_shapesOf

/-! ### Outputs -/

/-- Attempts that all succeed give the result of each. -/
theorem collect_eq_ok {α : Type} {attempts : List (Except Problem α)}
    (h : ∀ attempt ∈ attempts, ∃ a, attempt = .ok a) :
    collect attempts = .ok (attempts.filterMap Except.toOption) := by
  induction attempts with
  | nil => rfl
  | cons first rest ih =>
    obtain ⟨⟨a, rfl⟩, hrest⟩ := List.forall_mem_cons.1 h
    simp only [collect, ih hrest]
    rfl

/-- In another order, attempts give the same results in another order. -/
theorem collect_of_perm {α : Type} {attempts attempts' : List (Except Problem α)} {results : List α}
    (hperm : attempts.Perm attempts') (h : collect attempts = .ok results) :
    ∃ results', collect attempts' = .ok results' ∧ results.Perm results' := by
  have hok : ∀ attempt ∈ attempts, ∃ a, attempt = .ok a := by
    intro attempt hattempt
    obtain ⟨a, -, ha⟩ := exists_of_mem_forall₂ (forall₂_of_collect h) hattempt
    exact ⟨a, ha⟩
  obtain rfl := Except.ok.inj ((collect_eq_ok hok).symm.trans h)
  exact ⟨_, collect_eq_ok fun attempt hattempt => hok attempt (hperm.mem_iff.2 hattempt),
    hperm.filterMap _⟩

/-- An output has the new name of its source. -/
theorem name_of_relabel {r : Decisions} {settings : RelabelSettings} {source : LocatedClass}
    {out : RelabeledClass} (h : source.relabel r settings = .ok out) :
    out.name = r.className source.name := by
  unfold LocatedClass.relabel at h
  split at h
  · cases h
    rfl
  · cases h

/-- Sorted outputs are in the order of their names. -/
theorem pairwise_mergeSort_name (outs : List RelabeledClass) :
    (outs.mergeSort fun a b => a.name ≤ b.name).Pairwise fun a b => a.name ≤ b.name := by
  refine (List.pairwise_mergeSort ?_ ?_ outs).imp of_decide_eq_true
  · intro a b c hab hbc
    rw [decide_eq_true_iff] at hab hbc ⊢
    exact String.le_trans hab hbc
  · intro a b
    rw [Bool.or_eq_true, decide_eq_true_iff, decide_eq_true_iff]
    exact String.le_total a.name b.name

/-- Sources that get different names give the same outputs in any order. -/
theorem relabelAll_of_perm {r : Decisions} {settings : RelabelSettings}
    {sources sources' : List LocatedClass} {classes : List RelabeledClass}
    (hperm : sources.Perm sources')
    (hnames : ∀ a ∈ sources, ∀ b ∈ sources, r.className a.name = r.className b.name → a = b)
    (h : relabelAll r settings sources = .ok classes) :
    relabelAll r settings sources' = .ok classes := by
  obtain ⟨made, hmade, hsorted⟩ := Except.bind_eq_ok.1 h
  obtain rfl := Except.pure_eq_ok.1 hsorted
  obtain ⟨made', hmade', hmadePerm⟩ := collect_of_perm (hperm.map _) hmade
  have hfrom : ∀ out ∈ made, ∃ source ∈ sources, source.relabel r settings = .ok out := by
    intro out hout
    obtain ⟨attempt, hattempt, rfl⟩ := exists_of_mem_forall₂ (forall₂_of_collect hmade).flip hout
    exact List.mem_map.1 hattempt
  have hsame : ∀ a ∈ made, ∀ b ∈ made, a.name = b.name → a = b := by
    intro a ha b hb hname
    obtain ⟨source, hsource, hrelabel⟩ := hfrom a ha
    obtain ⟨source', hsource', hrelabel'⟩ := hfrom b hb
    rw [name_of_relabel hrelabel, name_of_relabel hrelabel'] at hname
    obtain rfl := hnames source hsource source' hsource' hname
    exact Except.ok.inj (hrelabel.symm.trans hrelabel')
  refine Except.bind_eq_ok.2 ⟨made', hmade', Except.pure_eq_ok.2 ?_⟩
  -- Two sorted lists of the same outputs are equal, since no two outputs have one name.
  refine List.Perm.eq_of_pairwise ?_ (pairwise_mergeSort_name made') (pairwise_mergeSort_name made)
    ?_
  · intro a b ha hb hab hba
    rw [List.mem_mergeSort] at ha hb
    exact hsame a (hmadePerm.mem_iff.2 ha) b hb (String.le_antisymm hab hba)
  · exact (List.mergeSort_perm _ _).trans
      (hmadePerm.symm.trans (List.mergeSort_perm _ _).symm)

/-! ### Runs -/

namespace Session

/-- A phase is passed exactly where it has no problems. -/
theorem failIf_eq_ok {phase : Phase} {problems : List Problem} {u : Unit} :
    failIf phase problems = .ok u ↔ problems = [] := by
  unfold failIf
  cases problems <;> simp

section

variable {s : Session} {cancelled : Phase → Bool} {threads : Nat}
  {inputs inputs' classpath classpath' : List LocatedClass} {mappings : Mapping.Renames}
  {result : RunResult}

/-- Where all inputs are accepted no two of them get one name. -/
theorem eq_of_className_eq
    (h : runPhases s.options cancelled threads inputs classpath mappings = .ok result)
    (hnamed : WellNamed inputs)
    (haccepted : (enrol (.ofClasspath classpath) inputs).accepted = inputs) :
    ∀ a ∈ inputs, ∀ b ∈ inputs,
      result.decisions.className a.name = result.decisions.className b.name → a = b := by
  intro a ha b hb hname
  refine List.inj_on_of_nodup_map hnamed.names ha hb ?_
  -- Two accepted inputs of different names would have different new names.
  by_contra hne
  refine className_ne_of_accepted h ?_ ?_ (hnamed.holds a ha) (hnamed.holds b hb) hne hname
  · rwa [haccepted]
  · rwa [haccepted]

/-- Inputs of different classes, each named after the class it holds, and entries of the classpath
with different names may come in any order: a run that succeeds gives the same outputs in the same
order, the same decisions and warnings, and the same counts. -/
theorem run_of_perm (hinputs : inputs.Perm inputs') (hclasspath : classpath.Perm classpath')
    (hnamed : WellNamed inputs) (hentries : (classpath.map (·.name)).Nodup)
    (h : (s.run cancelled threads inputs classpath mappings).1 = .ok result) :
    (s.run cancelled threads inputs' classpath' mappings).1 = .ok result := by
  have hphases := run_ok h
  have hnamed' := hnamed.of_perm hinputs
  -- The same classes are registered, so the same are loaded, and the same gaps filled.
  obtain ⟨hreport, hloaded⟩ := (same_enrol hinputs hclasspath hnamed hentries).loadNeeded
  obtain ⟨hgaps, hfilled⟩ :=
    hloaded.fillGaps (enrol (.ofClasspath classpath) inputs).catalog.loadNeeded.1.unresolved
      s.options.resolveMissing
  have hempty (classpath : List LocatedClass) (n : String) :
      (Catalog.ofClasspath classpath).get? n = none := by simp [Catalog.ofClasspath, Catalog.get?]
  unfold run at h ⊢
  split at h
  · cases h
  · next hidle =>
    rw [if_neg hidle]
    simp only [runPhases, Except.bind_eq_ok, Except.mapError_eq_ok, Except.pure_eq_ok,
      failIf_eq_ok, List.append_eq_nil_iff] at h ⊢
    obtain ⟨_, hbuilding, _, ⟨hread, hproblems⟩, _, hresolving, _, hmissing,
      ⟨decisions, warnings⟩, hdecisions, _, hremapping, classes, hclasses, rfl⟩ := h
    -- All inputs are accepted in either order.
    have hread := (problems_enrol_eq_nil _ _).1 hread
    have hread' : ∀ source ∈ inputs', ∃ shape,
        ClassShape.decode source.bytes .input = .ok shape :=
      fun source hsource => hread source (hinputs.mem_iff.2 hsource)
    obtain ⟨haccepted, hduplicates⟩ :=
      hnamed.accepted_enrol hread fun source _ => hempty classpath source.name
    obtain ⟨haccepted', hduplicates'⟩ :=
      hnamed'.accepted_enrol hread' fun source _ => hempty classpath' source.name
    have hnames := eq_of_className_eq hphases hnamed haccepted
    rw [haccepted] at hclasses
    rw [← hreport, ← hgaps, ← hfilled.classes_eq, haccepted, hduplicates, haccepted',
      hduplicates', ← hinputs.length_eq]
    exact ⟨(), hbuilding, (), ⟨(problems_enrol_eq_nil _ _).2 hread', hproblems⟩, (), hresolving, (),
      hmissing, (decisions, warnings), hdecisions, (), hremapping, classes,
      relabelAll_of_perm hinputs hnames hclasses, rfl⟩

/-- The class that refers to the field may come before the one that declares it. -/
theorem run_of_perm_inherited : ∃ result : RunResult,
    (({ options := {} } : Session).run (fun _ => false) 1 inherited [] toG).1 = .ok result ∧
    WellNamed inherited ∧
    (({ options := {} } : Session).run (fun _ => false) 1 inherited.reverse [] toG).1 =
      .ok result := by
  obtain ⟨result, hrun, -⟩ := exists_run_inherited
  have hnamed : WellNamed inherited := by
    refine ⟨by decide, List.forall_mem_cons.2 ⟨⟨base, rfl, rfl⟩, ?_⟩⟩
    exact List.forall_mem_singleton.2 ⟨derived, rfl, rfl⟩
  exact ⟨result, hrun, hnamed,
    run_of_perm (List.reverse_perm _).symm (.refl []) hnamed List.nodup_nil hrun⟩

end

end Session

end Relabel
