import Mathlib.Order.Bounds.Defs
import Relabel.Proofs.Catalog.Waves

/-!
# The classes that are loaded

What is needed is what the roots need: the classes registered first, the supertypes of all classes
there are, and the classes of the classpath with members that a root refers to. Every wave keeps to
what is needed, and whatever a registered class needs is registered, or due, or has failed. So when
the waves have come to their end without a problem, the registered classes are those needed.

## Main results

- `Catalog.Underway.step`: one wave, by what it loads.
- `Catalog.underway_of_endsAt`: all waves, by induction.
- `Catalog.Underway.contains_iff_needed`: what is registered in the end.
- `Catalog.Underway.loadsNeeded`: that it is the least set with what is needed, and what the report
  says of it.
-/

namespace Relabel

/-- A class of which nothing is known. -/
def ClassShape.IsStandIn (shape : ClassShape) : Prop :=
  shape = .standIn shape.name .unresolved ∨ shape = .standIn shape.name .synthetic

/-- The references of a class of the classpath are not looked at. -/
theorem ClassShape.references_of_decode {data : Bytes} {shape : ClassShape}
    (h : decode data .classpath = .ok shape) : shape.references = [] := by
  obtain ⟨c, -, hshape⟩ := Except.bind_eq_ok.1 h
  simp only [ofClassFile, Except.bind_eq_ok] at hshape
  obtain ⟨name, -, fields, -, methods, -, hshape⟩ := hshape
  rw [if_neg (by decide)] at hshape
  simp only [Except.bind_eq_ok, Except.pure_eq_ok] at hshape
  obtain ⟨references, rfl, superName, -, interfaces, -, rfl⟩ := hshape
  rfl

namespace Catalog

/-! ### What is needed -/

/-- The class of a name: the one registered at first, or else the one that the classpath holds. -/
def Stands (c : Catalog) (n : String) (shape : ClassShape) : Prop :=
  c.get? n = some shape ∨ ¬ c.contains n ∧ ∃ found, c.classpath[n]? = some found ∧
    ClassShape.decode found.bytes .classpath = .ok shape ∧ shape.name = n

/-- The names of the classes that the registered ones need. -/
inductive Needed (c : Catalog) : String → Prop
  | root {n : String} : c.contains n → Needed c n
  | supertype {n t : String} {shape : ClassShape} : Needed c n → c.Stands n shape →
      t ∈ shape.supertypes → ¬ ClassShape.isArray t → Needed c t
  | owner {n : String} {root : ClassShape} {kind : MemberKind} {key : MemberKey} :
      c.get? n = some root → .ofMember kind key ∈ root.references →
      ¬ ClassShape.isArray key.owner → c.classpath.contains key.owner → Needed c key.owner

/-- Loading on its way from the catalog it started with. -/
structure Underway (c : Catalog) (s : Loading) : Prop where
  pending : s.Pending
  classpath : s.catalog.classpath = c.classpath
  roots : ∀ n shape, c.get? n = some shape → s.catalog.get? n = some shape
  shown : ∀ n shape, s.catalog.get? n = some shape → c.Stands n shape ∨
    ¬ c.contains n ∧ c.classpath[n]? = none ∧ shape = .standIn n .unresolved
  needed : ∀ n, s.catalog.contains n → c.Needed n
  requiredNeeded : ∀ n, Requires s.due n → c.Needed n
  /-- What is due but need not exist is needed only where it does. -/
  dueNeeded : ∀ n ∈ s.due, c.classpath.contains n → c.Needed n
  supertypes : ∀ n shape, s.catalog.get? n = some shape → ∀ t ∈ shape.supertypes,
    ¬ ClassShape.isArray t → s.catalog.contains t ∨ Requires s.due t ∨ s.report.problems ≠ []
  owners : ∀ n root, c.get? n = some root → ∀ kind key, .ofMember kind key ∈ root.references →
    ¬ ClassShape.isArray key.owner → c.classpath.contains key.owner →
      s.catalog.contains key.owner ∨ key.owner ∈ s.due ∨ s.report.problems ≠ []
  unresolved : ∀ n, n ∈ s.report.unresolved ↔
    s.catalog.contains n ∧ ¬ c.contains n ∧ c.classpath[n]? = none
  loaded : ∃ names : List String, names.Nodup ∧ names.length = s.report.loaded ∧
    ∀ n, n ∈ names ↔ s.catalog.contains n ∧ ¬ c.contains n ∧ c.classpath.contains n

theorem mem_classes {c : Catalog} {shape : ClassShape} :
    shape ∈ c.classes ↔ ∃ n, c.get? n = some shape := by
  simp only [classes, List.mem_map, Prod.exists, exists_eq_right, get?,
    Std.TreeMap.mem_toList_iff_getElem?_eq_some]

variable {c : Catalog} {s s' : Loading} {n t : String} {shape : ClassShape}
  {outcomes : List (String × Request × FetchResult)}

/-- At the start what the roots need is due. -/
theorem underway_loading (c : Catalog) : c.Underway c.loading where
  pending := c.pending_loading
  classpath := rfl
  roots _ _ h := h
  shown _ _ h := .inl (.inl h)
  needed _ h := .root h
  -- A name that is required comes from a root with that supertype.
  requiredNeeded n h := by
    obtain ⟨shape, hshape, ht, hopen⟩ :=
      ((requires_foldl_requestFor _).1 h).resolve_left not_requires_empty
    obtain ⟨m, hm⟩ := mem_classes.1 hshape
    exact .supertype (.root (contains_iff.2 ⟨shape, hm⟩)) (.inl hm) ht hopen.not_array
  dueNeeded n hn hfound := by
    obtain ⟨shape, hshape, hwanted, hopen⟩ :=
      ((mem_foldl_requestFor _).1 hn).resolve_left not_mem_empty
    obtain ⟨m, hm⟩ := mem_classes.1 hshape
    -- A name that is due is a supertype of a root, or the owner of a member that a root refers to.
    rcases hwanted with ht | ⟨kind, key, hkey, rfl⟩
    · exact .supertype (.root (contains_iff.2 ⟨shape, hm⟩)) (.inl hm) ht hopen.not_array
    · exact .owner hm hkey hopen.not_array hfound
  supertypes n shape h t ht harray := by
    by_cases hold : c.contains t
    · exact .inl hold
    · exact .inr (.inl ((requires_foldl_requestFor _).2
        (.inr ⟨shape, mem_classes.2 ⟨n, h⟩, ht, harray, hold⟩)))
  owners n root h kind key hkey harray _ := by
    by_cases hold : c.contains key.owner
    · exact .inl hold
    · exact .inr (.inl ((mem_foldl_requestFor _).2
        (.inr ⟨root, mem_classes.2 ⟨n, h⟩, .inr ⟨kind, key, hkey, rfl⟩, harray, hold⟩)))
  unresolved n := by
    refine iff_of_false (by simp [loading]) ?_
    rintro ⟨hold, hnew, -⟩
    exact hnew hold
  loaded := by
    refine ⟨[], List.nodup_nil, rfl, fun n => iff_of_false List.not_mem_nil ?_⟩
    rintro ⟨hold, hnew, -⟩
    exact hnew hold

/-! ### One wave -/

namespace Loading

/-- What a wave registers: a class of the classpath, or a stand-in for one that is required. -/
inductive Registers (s : Loading) (outcomes : List (String × Request × FetchResult)) (n : String) :
    ClassShape → Prop
  | loaded {shape : ClassShape} {found : LocatedClass} : shape ∈ loadedIn outcomes →
      s.catalog.classpath[n]? = some found →
      ClassShape.decode found.bytes .classpath = .ok shape → shape.name = n →
      Registers s outcomes n shape
  | missing {request : Request} : (n, request, .missing) ∈ outcomes →
      s.catalog.classpath[n]? = none → Requires s.due n →
      Registers s outcomes n (.standIn n .unresolved)

/-- What is registered behind a wave was so before, or was due and is registered by the wave. -/
theorem Step.registers (h : s.Step outcomes s') (hshape : s'.catalog.get? n = some shape) :
    s.catalog.get? n = some shape ∨ n ∈ s.due ∧ s.Registers outcomes n shape := by
  -- A due class has an outcome in this wave; any other class stays as it was.
  by_cases hdue : n ∈ s.due
  · obtain ⟨request, result, hmem, hrequest, hfetched, hget⟩ := h.exists_outcome hdue
    rw [hshape] at hget
    cases hfetched with
    | loaded hfound hdecode hname =>
      obtain rfl := Option.some.inj hget
      exact .inr ⟨hdue, .loaded (List.mem_filterMap.2 ⟨_, hmem, rfl⟩) hfound hdecode hname⟩
    | missing hnone hrequired =>
      obtain rfl := Option.some.inj hget
      exact .inr ⟨hdue, .missing hmem hnone ⟨request, hrequest, hrequired⟩⟩
    | skipped | failed => cases hget
  · rw [h.kept hdue] at hshape
    exact .inl hshape

/-- What is due and required, or on the classpath, is registered behind the wave or was a
problem. -/
theorem Step.contains_or_problem (h : s.Step outcomes s') (hdue : n ∈ s.due)
    (hn : Requires s.due n ∨ s.catalog.classpath.contains n) :
    s'.catalog.contains n ∨ s'.report.problems ≠ [] := by
  obtain ⟨request, result, hmem, hrequest, hfetched, hget⟩ := h.exists_outcome hdue
  cases hfetched with
  | loaded => exact .inl (contains_iff.2 ⟨_, hget⟩)
  | missing => exact .inl (contains_iff.2 ⟨_, hget⟩)
  -- Nothing stands for a name that is optional and missing, which both cases of `hn` exclude.
  | skipped hnone hoptional =>
    rcases hn with ⟨p, hp, hrequired⟩ | hfound
    · obtain rfl := Option.some.inj (hrequest.symm.trans hp)
      exact absurd hrequired hoptional
    · obtain ⟨found, hfound⟩ := contains_classpath_iff.1 hfound
      cases hnone.symm.trans hfound
  | failed =>
    refine .inr ?_
    rw [h.notes.problems]
    exact List.append_ne_nil_of_right_ne_nil _
      (List.ne_nil_of_mem (List.mem_filterMap.2 ⟨_, hmem, rfl⟩))

/-- Problems stay. -/
theorem Step.problems (h : s.Step outcomes s') (hproblems : s.report.problems ≠ []) :
    s'.report.problems ≠ [] := by
  rw [h.notes.problems]
  exact List.append_ne_nil_of_left_ne_nil hproblems _

/-- A class that a wave loaded was due, and is what the classpath holds under its name. -/
structure Loads (s : Loading) (s' : Loading) (shape : ClassShape) : Prop where
  due : shape.name ∈ s.due
  decoded : ∃ found, s.catalog.classpath[shape.name]? = some found ∧
    ClassShape.decode found.bytes .classpath = .ok shape
  registered : s'.catalog.get? shape.name = some shape

/-- An outcome with a shape loads the class with its name. -/
theorem Step.loads (h : s.Step outcomes s') {o : String × Request × FetchResult}
    (ho : o ∈ outcomes) (hloaded : loaded? o.2.2 = some shape) :
    o.1 = shape.name ∧ s.Loads s' shape := by
  obtain ⟨name, request, result⟩ := o
  obtain ⟨hfetched, hget⟩ := h.wave.fetched _ ho
  cases hfetched with
  | loaded hfound hdecode hname =>
    obtain rfl := Option.some.inj hloaded
    obtain rfl := hname
    exact ⟨rfl, h.mem_due ho, ⟨_, hfound, hdecode⟩, hget⟩
  | skipped | missing | failed => cases hloaded

/-- A shape among the outcomes is loaded. -/
theorem Step.loads_of_mem (h : s.Step outcomes s') (hshape : shape ∈ loadedIn outcomes) :
    s.Loads s' shape := by
  obtain ⟨o, ho, hloaded⟩ := List.mem_filterMap.1 hshape
  exact (h.loads ho hloaded).2

/-- The classes that a wave loaded have different names. -/
theorem Step.nodup_loadedIn (h : s.Step outcomes s') :
    ((loadedIn outcomes).map ClassShape.name).Nodup := by
  have hnames : (outcomes.map Prod.fst).Nodup := by
    have hentries := congrArg (List.map Prod.fst) h.wave.entries
    rw [List.map_map] at hentries
    exact hentries ▸ s.nodup_names_toList
  rw [List.Nodup, List.pairwise_map, loadedIn, List.pairwise_filterMap]
  refine (List.pairwise_map.1 hnames).imp_of_mem fun {o o'} ho ho' hne => ?_
  intro shape hshape shape' hshape'
  rwa [← (h.loads ho hshape).1, ← (h.loads ho' hshape').1]

end Loading

namespace Underway

/-- A name that is due is new. -/
theorem new (h : c.Underway s) (hn : n ∈ s.due) : ¬ c.contains n := by
  intro hroot
  obtain ⟨shape, hshape⟩ := contains_iff.1 hroot
  exact (h.pending n hn).new (contains_iff.2 ⟨shape, h.roots n shape hshape⟩)

theorem stands (h : c.Underway s) (hshape : s.Loads s' shape) : c.Stands shape.name shape := by
  obtain ⟨found, hfound, hdecode⟩ := hshape.decoded
  exact .inr ⟨h.new hshape.due, found, h.classpath ▸ hfound, hdecode, rfl⟩

/-- A class that is loaded stands on the classpath. -/
theorem contains_classpath (h : c.Underway s) (hshape : s.Loads s' shape) :
    c.classpath.contains shape.name := by
  obtain ⟨found, hfound, -⟩ := hshape.decoded
  exact contains_classpath_iff.2 ⟨found, h.classpath ▸ hfound⟩

/-- What a wave loaded is needed. -/
theorem needed_of_loads (h : c.Underway s) (hshape : s.Loads s' shape) : c.Needed shape.name :=
  h.dueNeeded _ hshape.due (h.contains_classpath hshape)

/-- What is due behind a wave is a supertype of what it loaded: that has no references. -/
theorem needed_of_due (h : c.Underway s) (hstep : s.Step outcomes s') (hn : n ∈ s'.due) :
    c.Needed n := by
  rw [hstep.due_eq, mem_foldl_requestFor] at hn
  obtain ⟨shape, hshape, hwanted, hopen⟩ := hn.resolve_left not_mem_empty
  have hloads := hstep.loads_of_mem hshape
  obtain ⟨found, -, hdecode⟩ := hloads.decoded
  have hsupertype : n ∈ shape.supertypes := hwanted.resolve_right (by
    simp [RefersInto, ClassShape.references_of_decode hdecode])
  exact .supertype (h.needed_of_loads hloads) (h.stands hloads) hsupertype hopen.not_array

/-- One more wave. -/
theorem step (h : c.Underway s) (hstep : s.Step outcomes s') : c.Underway s' where
  pending := hstep.pending
  classpath := hstep.wave.classpath.trans h.classpath
  roots n shape hroot := by
    rw [hstep.kept fun hdue => h.new hdue (contains_iff.2 ⟨shape, hroot⟩)]
    exact h.roots n shape hroot
  shown n shape hshape := by
    rcases hstep.registers hshape with hold | ⟨hdue, hregisters⟩
    · exact h.shown n shape hold
    · cases hregisters with
      | loaded hmem _ _ hname => exact .inl (hname ▸ h.stands (hstep.loads_of_mem hmem))
      | missing _ hnone _ => exact .inr ⟨h.new hdue, h.classpath ▸ hnone, rfl⟩
  needed n hn := by
    obtain ⟨shape, hshape⟩ := contains_iff.1 hn
    rcases hstep.registers hshape with hold | ⟨hdue, hregisters⟩
    · exact h.needed n (contains_iff.2 ⟨shape, hold⟩)
    · cases hregisters with
      | loaded hmem _ _ hname => exact hname ▸ h.needed_of_loads (hstep.loads_of_mem hmem)
      | missing _ _ hrequired => exact h.requiredNeeded n hrequired
  requiredNeeded n hn := h.needed_of_due hstep hn.mem
  dueNeeded n hn _ := h.needed_of_due hstep hn
  supertypes n shape hshape t ht harray := by
    by_cases hnow : s'.catalog.contains t
    · exact .inl hnow
    rcases hstep.registers hshape with hold | ⟨hdue, hregisters⟩
    -- The shape was known before the wave, so its supertypes were known, required or a problem.
    · rcases h.supertypes n shape hold t ht harray with hcontains | hrequired | hproblems
      · exact absurd (hstep.contains h.pending hcontains) hnow
      · have hcome := hstep.contains_or_problem hrequired.mem (.inl hrequired)
        exact .inr (.inr (hcome.resolve_left hnow))
      · exact .inr (.inr (hstep.problems hproblems))
    · cases hregisters with
      | loaded hmem _ _ _ =>
        refine .inr (.inl ?_)
        rw [hstep.due_eq, requires_foldl_requestFor]
        exact .inr ⟨shape, hmem, ht, harray, hnow⟩
      | missing => cases ht
  owners n root hroot kind key hkey harray hfound := by
    rcases h.owners n root hroot kind key hkey harray hfound with hcontains | hdue | hproblems
    · exact .inl (hstep.contains h.pending hcontains)
    · exact (hstep.contains_or_problem hdue (.inr (h.classpath ▸ hfound))).imp_right .inr
    · exact .inr (.inr (hstep.problems hproblems))
  unresolved n := by
    rw [hstep.notes.unresolved, h.unresolved]
    constructor
    · rintro (⟨hold, hnew, hnone⟩ | ⟨request, hmem⟩)
      · exact ⟨hstep.contains h.pending hold, hnew, hnone⟩
      · obtain ⟨hfetched, hget⟩ := hstep.wave.fetched _ hmem
        cases hfetched with
        | missing hnone _ =>
          exact ⟨contains_iff.2 ⟨_, hget⟩, h.new (hstep.mem_due hmem), h.classpath ▸ hnone⟩
    · rintro ⟨hn, hnew, hnone⟩
      obtain ⟨shape, hshape⟩ := contains_iff.1 hn
      rcases hstep.registers hshape with hold | ⟨-, hregisters⟩
      · exact .inl ⟨contains_iff.2 ⟨shape, hold⟩, hnew, hnone⟩
      · cases hregisters with
        | loaded _ hfound _ _ =>
          rw [h.classpath, hnone] at hfound
          cases hfound
        | missing hmem _ _ => exact .inr ⟨_, hmem⟩
  loaded := by
    obtain ⟨names, hnodup, hlength, hnames⟩ := h.loaded
    refine ⟨names ++ (loadedIn outcomes).map ClassShape.name, ?_, ?_, fun n => ?_⟩
    · refine List.nodup_append.2 ⟨hnodup, hstep.nodup_loadedIn, ?_⟩
      rintro n hn _ hn' rfl
      obtain ⟨shape, hshape, rfl⟩ := List.mem_map.1 hn'
      exact (h.pending _ (hstep.loads_of_mem hshape).due).new ((hnames _).1 hn).1
    · rw [List.length_append, List.length_map, hlength, hstep.notes.loaded]
    · rw [List.mem_append, hnames]
      constructor
      -- Known before and loaded by an earlier wave, or loaded by this one.
      · rintro (⟨hold, hnew, hfound⟩ | hn)
        · exact ⟨hstep.contains h.pending hold, hnew, hfound⟩
        · obtain ⟨shape, hshape, rfl⟩ := List.mem_map.1 hn
          have hloads := hstep.loads_of_mem hshape
          exact ⟨contains_iff.2 ⟨shape, hloads.registered⟩, h.new hloads.due,
            h.contains_classpath hloads⟩
      · rintro ⟨hn, hnew, hfound⟩
        obtain ⟨shape, hshape⟩ := contains_iff.1 hn
        rcases hstep.registers hshape with hold | ⟨-, hregisters⟩
        · exact .inl ⟨contains_iff.2 ⟨shape, hold⟩, hnew, hfound⟩
        · cases hregisters with
          | loaded hmem _ _ hname => exact .inr (List.mem_map.2 ⟨shape, hmem, hname⟩)
          | missing _ hnone _ =>
            obtain ⟨found, hfound⟩ := contains_classpath_iff.1 hfound
            rw [h.classpath, hfound] at hnone
            cases hnone

end Underway

/-! ### The end -/

/-- All that is known of the loading is known when it ends. -/
theorem underway_of_endsAt (h : c.Underway s) (hends : EndsAt Loading.next s s') :
    c.Underway s' := by
  induction hends with
  | stop => exact h
  | pass hnext _ ih =>
    obtain ⟨outcomes, hstep⟩ := Loading.exists_step h.pending hnext
    exact ih (h.step hstep)

/-- Where there is no next wave nothing is due. -/
theorem not_mem_due_of_next (h : s.next = none) (n : String) : n ∉ s.due := by
  unfold Loading.next at h
  split at h
  · next hdue => exact Std.TreeMap.isEmpty_iff_forall_not_mem.1 hdue n
  · cases h

namespace Underway

/-- A class that is registered and was not at first is the one that the classpath holds. -/
theorem decoded_of_found (h : c.Underway s) (hshape : s.catalog.get? n = some shape)
    (hnew : ¬ c.contains n) {found : LocatedClass} (hfound : c.classpath[n]? = some found) :
    ClassShape.decode found.bytes .classpath = .ok shape ∧ shape.name = n := by
  rcases h.shown n shape hshape with
    (hroot | ⟨-, found', hfound', hdecode, hname⟩) | ⟨-, hnone, -⟩
  · exact absurd (contains_iff.2 ⟨shape, hroot⟩) hnew
  · obtain rfl := Option.some.inj (hfound.symm.trans hfound')
    exact ⟨hdecode, hname⟩
  · cases hfound.symm.trans hnone

/-- A needed class that is registered is the one its name stands for. -/
theorem get?_of_stands (h : c.Underway s) (hn : s.catalog.contains n) (hstands : c.Stands n shape) :
    s.catalog.get? n = some shape := by
  rcases hstands with hroot | ⟨hnew, found, hfound, hdecode, -⟩
  · exact h.roots n shape hroot
  · obtain ⟨shape', hshape'⟩ := contains_iff.1 hn
    obtain ⟨hdecode', -⟩ := h.decoded_of_found hshape' hnew hfound
    rwa [Except.ok.inj (hdecode.symm.trans hdecode')]

/-- Without a problem all that is needed is registered when nothing is due any more. -/
theorem contains_iff_needed (h : c.Underway s) (hdue : ∀ n, n ∉ s.due)
    (hproblems : s.report.problems = []) : s.catalog.contains n ↔ c.Needed n := by
  refine ⟨h.needed n, fun hn => ?_⟩
  induction hn with
  | root hroot =>
    obtain ⟨shape, hshape⟩ := contains_iff.1 hroot
    exact contains_iff.2 ⟨shape, h.roots _ shape hshape⟩
  | supertype _ hstands ht harray ih =>
    rcases h.supertypes _ _ (h.get?_of_stands ih hstands) _ ht harray with hold | hrequired | hne
    · exact hold
    · exact absurd hrequired.mem (hdue _)
    · exact absurd hproblems hne
  -- An owner that is found in the classpath was due, unless it is registered or a problem is told.
  | owner hroot hkey harray hfound =>
    rcases h.owners _ _ hroot _ _ hkey harray hfound with hold | hmem | hne
    · exact hold
    · exact absurd hmem (hdue _)
    · exact absurd hproblems hne

end Underway

/-- The set holds the roots, and with a class that is no stand-in its supertypes, and the classes of
the classpath with members that a root refers to. -/
structure Closed (c loaded : Catalog) (names : Set String) : Prop where
  roots : ∀ n, c.contains n → n ∈ names
  supertypes : ∀ n ∈ names, ∀ shape, loaded.get? n = some shape → ¬ shape.IsStandIn →
    ∀ t ∈ shape.supertypes, ¬ ClassShape.isArray t → t ∈ names
  owners : ∀ n root, c.get? n = some root → ∀ kind key, .ofMember kind key ∈ root.references →
    ¬ ClassShape.isArray key.owner → c.classpath.contains key.owner → key.owner ∈ names

/-- What is loaded is what is needed, each class as the classpath holds it or else a stand-in, and
the report says which. -/
structure LoadsNeeded (c : Catalog) (report : LoadReport) (loaded : Catalog) : Prop where
  least : IsLeast {names | c.Closed loaded names} {n | loaded.contains n}
  roots : ∀ n shape, c.get? n = some shape → loaded.get? n = some shape
  found : ∀ n, loaded.contains n → ¬ c.contains n → ∀ found, c.classpath[n]? = some found →
    ∃ shape, ClassShape.decode found.bytes .classpath = .ok shape ∧ shape.name = n ∧
      loaded.get? n = some shape
  missing : ∀ n, loaded.contains n → ¬ c.contains n → c.classpath[n]? = none →
    loaded.get? n = some (.standIn n .unresolved)
  unresolved : ∀ n, n ∈ report.unresolved ↔
    loaded.contains n ∧ ¬ c.contains n ∧ c.classpath[n]? = none
  count : report.loaded =
    loaded.shapes.keys.countP fun n => !c.contains n && c.classpath.contains n

namespace Underway

/-- What is known in the end is the least closed set of names. -/
theorem isLeast (h : c.Underway s) (hdue : ∀ n, n ∉ s.due) (hproblems : s.report.problems = []) :
    IsLeast {names | c.Closed s.catalog names} {n | s.catalog.contains n} := by
  have hneeded := fun n => h.contains_iff_needed (n := n) hdue hproblems
  constructor
  · refine ⟨fun n hn => (hneeded n).2 (.root hn), fun n hn shape hshape hknown t ht harray => ?_,
      fun n root hroot kind key hkey harray hfound =>
        (hneeded key.owner).2 (.owner hroot hkey harray hfound)⟩
    rcases h.shown n shape hshape with hstands | ⟨-, -, rfl⟩
    · exact (hneeded t).2 (.supertype ((hneeded n).1 hn) hstands ht harray)
    · cases ht
  · intro names hnames n hn
    induction (hneeded n).1 hn with
    | root hroot => exact hnames.roots _ hroot
    | @supertype m t shape hm hstands ht harray ih =>
      have hm' := (hneeded m).2 hm
      refine hnames.supertypes m (ih hm') shape (h.get?_of_stands hm' hstands) ?_ t ht harray
      -- A stand-in has no supertypes.
      rintro (heq | heq) <;> (rw [heq] at ht; cases ht)
    | owner hroot hkey harray hfound => exact hnames.owners _ _ hroot _ _ hkey harray hfound

/-- The number of loaded classes counts the new names on the classpath. -/
theorem count (h : c.Underway s) : s.report.loaded =
    s.catalog.shapes.keys.countP fun n => !c.contains n && c.classpath.contains n := by
  obtain ⟨names, hnodup, hlength, hnames⟩ := h.loaded
  rw [← hlength, List.countP_eq_length_filter]
  refine List.Perm.length_eq ((List.perm_ext_iff_of_nodup hnodup
    (Std.TreeMap.nodup_keys.filter _)).2 fun n => ?_)
  rw [hnames, List.mem_filter, Std.TreeMap.mem_keys, Std.TreeMap.mem_iff_contains,
    Bool.and_eq_true, Bool.not_eq_true', Bool.not_eq_true]
  rfl

/-- A loading that has ended without a problem has loaded what is needed. -/
theorem loadsNeeded (h : c.Underway s) (hdue : ∀ n, n ∉ s.due)
    (hproblems : s.report.problems = []) : c.LoadsNeeded s.report s.catalog where
  least := h.isLeast hdue hproblems
  roots := h.roots
  found n hn hnew found hfound := by
    obtain ⟨shape, hshape⟩ := contains_iff.1 hn
    obtain ⟨hdecode, hname⟩ := h.decoded_of_found hshape hnew hfound
    exact ⟨shape, hdecode, hname, hshape⟩
  missing n hn hnew hnone := by
    obtain ⟨shape, hshape⟩ := contains_iff.1 hn
    rcases h.shown n shape hshape with (hroot | ⟨-, found, hfound, -⟩) | ⟨-, -, rfl⟩
    · exact absurd (contains_iff.2 ⟨shape, hroot⟩) hnew
    · cases hfound.symm.trans hnone
    · exact hshape
  unresolved := h.unresolved
  count := h.count

end Underway

end Catalog

end Relabel
