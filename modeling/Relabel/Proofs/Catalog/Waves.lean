import Relabel.Proofs.Run.Provenance

/-!
# Waves of loading

What is due has different names, so what comes of loading one class depends on the classpath only,
not on the other classes of its wave or their order. A wave that loads nothing makes nothing due,
and any other leaves less of the classpath to load, so the waves come to an end.

## Main results

- `Catalog.isDue_requestFor`: what a class makes due.
- `Catalog.fetched_fetch`: what comes of loading one class.
- `Catalog.wave_fetchWave`: what comes of a wave, name by name.
- `Catalog.foldl_note`: what is reported of a wave, and what is due next.
- `Catalog.endsAt_loadNeeded`: the waves come to an end.
-/

namespace Relabel.Catalog

variable {c : Catalog} {n name referencedBy : String} {due : Requests} {required : Bool}

/-- A name is registered where there is a class with that name. -/
theorem contains_iff : c.contains n ↔ ∃ shape, c.get? n = some shape := by
  rw [contains, ← Std.TreeMap.mem_iff_contains, Std.TreeMap.mem_iff_isSome_getElem?,
    Option.isSome_iff_exists, get?]

theorem get?_eq_none_iff : c.get? n = none ↔ ¬ c.contains n := by
  rw [contains_iff]
  cases c.get? n <;> simp

/-- A name is on the classpath where there is an entry with that name. -/
theorem contains_classpath_iff {classpath : Std.HashMap String LocatedClass} :
    classpath.contains n ↔ ∃ found, classpath[n]? = some found := by
  rw [← Std.HashMap.mem_iff_contains, Std.HashMap.mem_iff_isSome_getElem?,
    Option.isSome_iff_exists]

/-! ### What is due -/

/-- A name that can be due: neither that of an array nor registered. -/
structure Open (c : Catalog) (n : String) : Prop where
  not_array : ¬ ClassShape.isArray n
  new : ¬ c.contains n

/-- The class with a name is due and must exist. -/
def Requires (due : Requests) (n : String) : Prop :=
  ∃ p, due[n]? = some p ∧ p.required

/-- A request for a name that is open enters it, required if it was so before. -/
theorem request_of_open (h : c.Open name) (referencedBy : String) (required : Bool)
    (due : Requests) : ∃ p : Request,
      c.request referencedBy required due name = due.insert name p ∧
        (p.required ↔ required ∨ Requires due name) := by
  unfold request Requires
  rw [if_neg (by simp [h.not_array, h.new])]
  cases due[name]? with
  | none => exact ⟨_, rfl, by simp⟩
  | some p => exact ⟨_, rfl, by simp [or_comm]⟩

/-- A request for any other name changes nothing. -/
theorem request_of_not_open (h : ¬ c.Open name) :
    c.request referencedBy required due name = due := by
  unfold request
  refine if_pos ?_
  rw [Bool.or_eq_true, or_iff_not_imp_left]
  exact fun harray => not_not.1 fun hnew => h ⟨harray, hnew⟩

/-- The class with a name is due, and must exist if that is asked for. -/
def IsDue (due : Requests) (must : Bool) (n : String) : Prop :=
  ∃ p, due[n]? = some p ∧ (must → p.required)

/-- What is due at all is what need not be required. -/
theorem isDue_false : IsDue due false n ↔ n ∈ due := by
  rw [IsDue, Std.TreeMap.mem_iff_isSome_getElem?, Option.isSome_iff_exists]
  simp

/-- What is due and must exist is required. -/
theorem isDue_true : IsDue due true n ↔ Requires due n := by
  simp [IsDue, Requires]

/-- What is required is due. -/
theorem Requires.mem (h : Requires due n) : n ∈ due := by
  obtain ⟨p, hp, -⟩ := h
  rw [Std.TreeMap.mem_iff_isSome_getElem?, hp]
  rfl

/-- A request makes its own name due, if that is open, and keeps what was due. -/
theorem isDue_request {must : Bool} : IsDue (c.request referencedBy required due name) must n ↔
    IsDue due must n ∨ (must → required) ∧ n = name ∧ c.Open name := by
  by_cases h : c.Open name
  -- A name that is open gets an entry; it is required if it was so before, or is now.
  · obtain ⟨p, hp, hrequired⟩ := request_of_open h referencedBy required due
    rw [hp, IsDue, Std.TreeMap.getElem?_insert]
    simp only [Std.LawfulEqCmp.compare_eq_iff_eq, h, and_true]
    split
    · next heq =>
      subst heq
      cases must with
      | false => simp
      | true => simp [hrequired, isDue_true, or_comm]
    · next hne => simp [IsDue, Ne.symm hne]
  · rw [request_of_not_open h]
    simp [h]

/-- So do requests for several names. -/
theorem isDue_foldl_request {must : Bool} (names : List String) :
    IsDue (names.foldl (c.request referencedBy required) due) must n ↔
      IsDue due must n ∨ (must → required) ∧ n ∈ names ∧ c.Open n := by
  induction names generalizing due with
  | nil => simp
  | cons name rest ih =>
    rw [List.foldl_cons, ih, isDue_request, List.mem_cons, or_assoc, or_and_right, ← and_or_left]
    refine or_congr_right (and_congr_right fun _ => or_congr_left (and_congr_right ?_))
    rintro rfl
    rfl

/-- A class refers to a member of another. -/
def RefersInto (shape : ClassShape) (n : String) : Prop :=
  ∃ kind key, .ofMember kind key ∈ shape.references ∧ key.owner = n

/-- The owners that are asked for are those of the members that a class refers to. -/
theorem mem_memberOwners {shape : ClassShape} : n ∈ memberOwners shape ↔ RefersInto shape n := by
  rw [memberOwners, List.mem_filterMap]
  constructor
  · rintro ⟨_ | ⟨kind, key⟩, hmem, howner⟩
    · cases howner
    · exact ⟨kind, key, hmem, Option.some.inj howner⟩
  · rintro ⟨kind, key, hmem, rfl⟩
    exact ⟨.ofMember kind key, hmem, rfl⟩

/-- A class makes due its supertypes, which must exist, and the classes with members that it refers
to. -/
theorem isDue_requestFor {must : Bool} {shape : ClassShape} :
    IsDue (c.requestFor due shape) must n ↔ IsDue due must n ∨
      (n ∈ shape.supertypes ∨ must = false ∧ RefersInto shape n) ∧ c.Open n := by
  rw [requestFor, isDue_foldl_request, isDue_foldl_request, mem_memberOwners, or_assoc,
    or_and_right]
  simp [and_assoc]

/-- So do several, one after the other. -/
theorem isDue_foldl_requestFor (must : Bool) (shapes : List ClassShape) :
    IsDue (shapes.foldl c.requestFor due) must n ↔ IsDue due must n ∨ ∃ shape ∈ shapes,
      (n ∈ shape.supertypes ∨ must = false ∧ RefersInto shape n) ∧ c.Open n := by
  induction shapes generalizing due with
  | nil => simp
  | cons shape rest ih =>
    rw [List.foldl_cons, ih, isDue_requestFor, or_assoc, List.exists_mem_cons_iff]

theorem mem_foldl_requestFor (shapes : List ClassShape) : n ∈ shapes.foldl c.requestFor due ↔
    n ∈ due ∨ ∃ shape ∈ shapes, (n ∈ shape.supertypes ∨ RefersInto shape n) ∧ c.Open n := by
  simpa only [isDue_false, true_and] using isDue_foldl_requestFor false shapes

/-- Required are the names that were so before, and the open supertypes of one of the classes. -/
theorem requires_foldl_requestFor (shapes : List ClassShape) :
    Requires (shapes.foldl c.requestFor due) n ↔
      Requires due n ∨ ∃ shape ∈ shapes, n ∈ shape.supertypes ∧ c.Open n := by
  simpa [isDue_true] using isDue_foldl_requestFor true shapes

/-- A class asks for another: as a supertype, or as the owner of a member it refers to. -/
def Asks (shape : ClassShape) (n : String) : Prop :=
  n ∈ shape.supertypes ∨ RefersInto shape n

instance (shape : ClassShape) (n : String) : Decidable (Asks shape n) :=
  decidable_of_iff (n ∈ shape.supertypes ∨ n ∈ memberOwners shape)
    (or_congr_right mem_memberOwners)

theorem not_mem_empty : n ∉ ({} : Requests) := by
  simp

theorem not_requires_empty : ¬ Requires {} n :=
  fun h => not_mem_empty h.mem

/-! ### One class -/

/-- What can come of loading a class that is not registered. -/
inductive Fetched (classpath : Std.HashMap String LocatedClass) (name : String) (required : Bool) :
    FetchResult → Prop
  | skipped : classpath[name]? = none → ¬ required → Fetched classpath name required .skipped
  | missing : classpath[name]? = none → required → Fetched classpath name required .missing
  | loaded {found : LocatedClass} {shape : ClassShape} : classpath[name]? = some found →
      ClassShape.decode found.bytes .classpath = .ok shape → shape.name = name →
      Fetched classpath name required (.loaded shape)
  | failed {found : LocatedClass} {problem : Problem} : classpath[name]? = some found →
      (∀ shape, ClassShape.decode found.bytes .classpath = .ok shape → shape.name ≠ name) →
      Fetched classpath name required (.failed problem)

/-- The class that a result puts into the catalog under a name. -/
def placed (name : String) : FetchResult → Option ClassShape
  | .loaded shape => some shape
  | .missing => some (.standIn name .unresolved)
  | .skipped | .failed _ => none

/-- Loading a class changes what is registered under its name and nothing else. -/
structure Fetches (c : Catalog) (name : String) (required : Bool) (result : FetchResult)
    (c' : Catalog) : Prop where
  fetched : Fetched c.classpath name required result
  classpath : c'.classpath = c.classpath
  get? : ∀ n, c'.get? n = if n = name then placed name result else c.get? n

/-- A class with a new name is put into the catalog. -/
theorem register_of_new {shape : ClassShape} (h : c.get? shape.name = none) :
    c.register shape = ⟨shape, true, c.put shape⟩ := by
  rw [register_eq_commit, commit, h]

/-- A name that is not registered is found on the classpath or not, and gets a class, a stand-in or
nothing. -/
theorem fetches_fetch (h : ¬ c.contains name) (required : Bool) :
    c.Fetches name required (c.fetch name required).1 (c.fetch name required).2 := by
  have hnew := get?_eq_none_iff.2 h
  have hkept : ∀ n, c.get? n = if n = name then none else c.get? n := by
    intro n
    split
    · next heq => rw [heq, hnew]
    · rfl
  have hput (shape : ClassShape) (hname : shape.name = name) (n : String) :
      (c.put shape).get? n = if n = name then some shape else c.get? n := by
    rw [get?_put, hname]
    simp only [eq_comm]
  have hregister (shape : ClassShape) (hname : shape.name = name) :
      c.register shape = ⟨shape, true, c.put shape⟩ :=
    register_of_new (hname ▸ hnew)
  unfold fetch
  rw [if_neg h]
  -- The classpath has no entry for the name.
  split
  · next hnone =>
    split
    · next hrequired =>
      rw [hregister (.standIn name .unresolved) rfl]
      exact ⟨.missing hnone hrequired, rfl, hput _ rfl⟩
    · next hoptional => exact ⟨.skipped hnone hoptional, rfl, hkept⟩
  -- It has one, which may be broken, or hold a class with another name.
  · next found hfound =>
    split
    · next e hdecode =>
      exact ⟨.failed hfound (fun shape hshape => by cases hdecode.symm.trans hshape), rfl, hkept⟩
    · next shape hdecode =>
      split
      · next hname =>
        rw [hregister shape hname]
        exact ⟨.loaded hfound hdecode hname, rfl, hput shape hname⟩
      · next hname =>
        refine ⟨.failed hfound (fun shape' hshape' => ?_), rfl, hkept⟩
        obtain rfl := Except.ok.inj (hdecode.symm.trans hshape')
        exact hname

/-! ### One wave -/

/-- What comes of a wave: for each class that is due a result, which the catalog shows, and nothing
else in the catalog. -/
structure Wave (c : Catalog) (due : List (String × Request))
    (outcomes : List (String × Request × FetchResult)) (c' : Catalog) : Prop where
  entries : outcomes.map (fun o => (o.1, o.2.1)) = due
  classpath : c'.classpath = c.classpath
  fetched : ∀ o ∈ outcomes, Fetched c.classpath o.1 o.2.1.required o.2.2 ∧
    c'.get? o.1 = placed o.1 o.2.2
  kept : ∀ n, n ∉ due.map Prod.fst → c'.get? n = c.get? n

/-- The first class that is due is loaded before the others. -/
theorem fetchWave_cons (c : Catalog) (name : String) (request : Request)
    (rest : List (String × Request)) : c.fetchWave ((name, request) :: rest) =
      let (result, c₁) := c.fetch name request.required
      ((name, request, result) :: (c₁.fetchWave rest).1, (c₁.fetchWave rest).2) :=
  rfl

/-- What comes of a wave is what comes of its classes one by one, since they have different
names. -/
theorem wave_fetchWave {due : List (String × Request)} (hdistinct : (due.map Prod.fst).Nodup)
    (hnew : ∀ e ∈ due, ¬ c.contains e.1) :
    c.Wave due (c.fetchWave due).1 (c.fetchWave due).2 := by
  induction due generalizing c with
  | nil => exact ⟨rfl, rfl, fun o ho => (List.not_mem_nil ho).elim, fun n _ => rfl⟩
  | cons e rest ih =>
    obtain ⟨name, request⟩ := e
    obtain ⟨hname, hdistinct⟩ := List.nodup_cons.1 hdistinct
    rw [List.forall_mem_cons] at hnew
    have hfirst := fetches_fetch hnew.1 request.required
    rw [fetchWave_cons]
    generalize c.fetch name request.required = fetched at hfirst
    obtain ⟨result, c₁⟩ := fetched
    -- The first class is not among the others, so these are not registered behind it either.
    have hother : ∀ n, n ∈ rest.map Prod.fst → c₁.get? n = c.get? n := by
      intro n hn
      rw [hfirst.get?, if_neg]
      rintro rfl
      exact hname hn
    have hrest := ih (c := c₁) hdistinct fun e he => by
      rw [← get?_eq_none_iff, hother e.1 (List.mem_map_of_mem he), get?_eq_none_iff]
      exact hnew.2 e he
    refine ⟨congrArg _ hrest.entries, hrest.classpath.trans hfirst.classpath, fun o ho => ?_,
      fun n hn => ?_⟩
    · rcases List.mem_cons.1 ho with rfl | ho
      · refine ⟨hfirst.fetched, (hrest.kept name hname).trans ?_⟩
        rw [hfirst.get?, if_pos rfl]
      · rw [← hfirst.classpath]
        exact hrest.fetched o ho
    · rw [List.map_cons, List.mem_cons, not_or] at hn
      exact (hrest.kept n hn.2).trans ((hfirst.get? n).trans (if_neg hn.1))

/-! ### What is noted of a wave -/

/-- The class that was loaded. -/
def loaded? : FetchResult → Option ClassShape
  | .loaded shape => some shape
  | .missing | .skipped | .failed _ => none

/-- The problem there was. -/
def problem? : FetchResult → Option Problem
  | .failed problem => some problem
  | .loaded _ | .missing | .skipped => none

/-- The classes that a wave loaded. -/
def loadedIn (outcomes : List (String × Request × FetchResult)) : List ClassShape :=
  outcomes.filterMap fun o => loaded? o.2.2

/-- What a report and the classes due next take note of. -/
structure Notes (c : Catalog) (outcomes : List (String × Request × FetchResult))
    (before after : LoadReport × Requests) : Prop where
  next : after.2 = (loadedIn outcomes).foldl c.requestFor before.2
  loaded : after.1.loaded = before.1.loaded + (loadedIn outcomes).length
  problems : after.1.problems = before.1.problems ++ outcomes.filterMap fun o => problem? o.2.2
  unresolved : ∀ n, n ∈ after.1.unresolved ↔
    n ∈ before.1.unresolved ∨ ∃ request, (n, request, .missing) ∈ outcomes

/-- What is noted of outcomes one after the other, by induction on their list. -/
theorem notes_foldl (outcomes : List (String × Request × FetchResult))
    (before : LoadReport × Requests) : c.Notes outcomes before (outcomes.foldl c.note before) := by
  induction outcomes generalizing before with
  | nil => exact ⟨rfl, rfl, by simp, by simp⟩
  | cons o rest ih =>
    obtain ⟨name, request, result⟩ := o
    obtain ⟨hnext, hloaded, hproblems, hunresolved⟩ := ih (c.note before (name, request, result))
    rw [List.foldl_cons]
    cases result with
    | loaded shape =>
      refine ⟨hnext, hloaded.trans ?_, hproblems, fun n => (hunresolved n).trans ?_⟩
      · simp only [note, loadedIn, loaded?, List.filterMap_cons, List.length_cons]
        omega
      · simp [note]
    | missing =>
      refine ⟨hnext, hloaded, hproblems, fun n => (hunresolved n).trans ?_⟩
      -- Of a name that is missing twice the first note counts, but either way it is noted.
      rw [note, Std.TreeMap.mem_insertIfNew, Std.LawfulEqCmp.compare_eq_iff_eq]
      constructor
      · rintro ((rfl | hbefore) | ⟨request, hrest⟩)
        · exact .inr ⟨request, List.mem_cons_self⟩
        · exact .inl hbefore
        · exact .inr ⟨request, List.mem_cons_of_mem _ hrest⟩
      · rintro (hbefore | ⟨request', hmem⟩)
        · exact .inl (.inr hbefore)
        · rcases List.mem_cons.1 hmem with heq | hrest
          · exact .inl (.inl (Prod.mk.inj heq).1.symm)
          · exact .inr ⟨request', hrest⟩
    | skipped => exact ⟨hnext, hloaded, hproblems, fun n => (hunresolved n).trans (by simp [note])⟩
    | failed problem =>
      refine ⟨hnext, hloaded, hproblems.trans ?_, fun n => (hunresolved n).trans (by simp [note])⟩
      simp [problem?, note]

/-! ### Wave after wave -/

/-- How far loading has come: the classes, what is reported of them, and what is due. -/
structure Loading where
  catalog : Catalog
  report : LoadReport := {}
  due : Requests := {}

namespace Loading

/-- How far loading has come after one more wave, where something is due. -/
def next (s : Loading) : Option Loading :=
  if s.due.isEmpty then none
  else
    let (outcomes, catalog) := s.catalog.fetchWave s.due.toList
    let (report, due) := outcomes.foldl catalog.note (s.report, {})
    some { catalog, report, due }

/-- Only classes that are not registered are due. -/
def Pending (s : Loading) : Prop :=
  ∀ n ∈ s.due, s.catalog.Open n

/-- One wave. -/
structure Step (s : Loading) (outcomes : List (String × Request × FetchResult)) (s' : Loading) :
    Prop where
  due : ¬ s.due.isEmpty
  wave : s.catalog.Wave s.due.toList outcomes s'.catalog
  notes : s'.catalog.Notes outcomes (s.report, {}) (s'.report, s'.due)

variable {s s' : Loading} {outcomes : List (String × Request × FetchResult)}

theorem mem_names_toList : n ∈ s.due.toList.map Prod.fst ↔ n ∈ s.due := by
  rw [Std.TreeMap.map_fst_toList_eq_keys, Std.TreeMap.mem_keys]

theorem nodup_names_toList (s : Loading) : (s.due.toList.map Prod.fst).Nodup := by
  rw [Std.TreeMap.map_fst_toList_eq_keys]
  exact Std.TreeMap.nodup_keys

/-- What comes of the next wave, and what is noted of it. -/
theorem step_of_next (hs : s.Pending) (h : s.next = some s') :
    s.Step (s.catalog.fetchWave s.due.toList).1 s' ∧
      (s.catalog.fetchWave s.due.toList).1.foldl s'.catalog.note (s.report, {}) =
        (s'.report, s'.due) := by
  unfold next at h
  split at h
  · cases h
  · next hdue =>
    -- What is due is not registered yet, so each class of the wave is fetched once.
    have hwave := wave_fetchWave s.nodup_names_toList fun e he =>
      (hs e.1 (mem_names_toList.1 (List.mem_map_of_mem he))).new
    obtain rfl := Option.some.inj h
    exact ⟨⟨hdue, hwave, notes_foldl _ _⟩, rfl⟩

/-- Where there is a next wave, something comes of it. -/
theorem exists_step (hs : s.Pending) (h : s.next = some s') : ∃ outcomes, s.Step outcomes s' :=
  ⟨_, (step_of_next hs h).1⟩

namespace Step

/-- A class that is not due stays as it is. -/
theorem kept (h : s.Step outcomes s') (hn : n ∉ s.due) :
    s'.catalog.get? n = s.catalog.get? n :=
  h.wave.kept n (mt mem_names_toList.1 hn)

/-- A class that is due comes to something. -/
theorem exists_outcome (h : s.Step outcomes s') (hn : n ∈ s.due) :
    ∃ request result, (n, request, result) ∈ outcomes ∧ s.due[n]? = some request ∧
      Fetched s.catalog.classpath n request.required result ∧
      s'.catalog.get? n = placed n result := by
  obtain ⟨request, hrequest⟩ : ∃ request, (n, request) ∈ s.due.toList := by
    obtain ⟨e, he, rfl⟩ := List.mem_map.1 (mem_names_toList.2 hn)
    exact ⟨e.2, he⟩
  have hentry := hrequest
  rw [← h.wave.entries] at hentry
  obtain ⟨⟨_, _, result⟩, hmem, heq⟩ := List.mem_map.1 hentry
  obtain ⟨rfl, rfl⟩ := Prod.mk.inj heq
  obtain ⟨hfetched, hget⟩ := h.wave.fetched _ hmem
  exact ⟨_, result, hmem, Std.TreeMap.mem_toList_iff_getElem?_eq_some.1 hrequest, hfetched, hget⟩

/-- Outcomes are of names that were due. -/
theorem mem_due (h : s.Step outcomes s') {o : String × Request × FetchResult}
    (ho : o ∈ outcomes) : o.1 ∈ s.due := by
  have hentry : (o.1, o.2.1) ∈ s.due.toList := by
    rw [← h.wave.entries]
    exact List.mem_map_of_mem ho
  exact mem_names_toList.1 (List.mem_map_of_mem hentry)

/-- What is due next is what the loaded classes need. -/
theorem due_eq (h : s.Step outcomes s') :
    s'.due = (loadedIn outcomes).foldl s'.catalog.requestFor {} :=
  h.notes.next

/-- Nothing is due next that is registered by then. -/
theorem pending (h : s.Step outcomes s') : s'.Pending := by
  intro n hn
  rw [h.due_eq, mem_foldl_requestFor] at hn
  obtain ⟨_, _, _, hopen⟩ := hn.resolve_left not_mem_empty
  exact hopen

/-- Classes stay registered. -/
theorem contains (h : s.Step outcomes s') (hs : s.Pending) (hn : s.catalog.contains n) :
    s'.catalog.contains n := by
  rw [contains_iff, h.kept fun hdue => (hs n hdue).new hn]
  exact contains_iff.1 hn

end Step

/-! ### The end -/

/-- The number of classes of the classpath that are not registered. -/
def unloaded (c : Catalog) : Nat :=
  c.classpath.keys.countP fun n => !c.contains n

/-- A wave behind which something is due has loaded a class. -/
theorem Step.unloaded_lt (h : s.Step outcomes s') (hs : s.Pending) (hdue : ¬ s'.due.isEmpty) :
    unloaded s'.catalog < unloaded s.catalog := by
  -- What is due behind the wave was asked for by a class that it loaded.
  obtain ⟨shape, hshape⟩ : ∃ shape, shape ∈ loadedIn outcomes := by
    refine List.exists_mem_of_ne_nil _ fun hnil => hdue ?_
    rw [h.due_eq, hnil]
    rfl
  obtain ⟨⟨name, request, result⟩, ho, hloaded⟩ := List.mem_filterMap.1 hshape
  obtain ⟨hfetched, hget⟩ := h.wave.fetched _ ho
  have hnew : s.catalog.Open name := hs name (h.mem_due ho)
  cases hfetched with
  -- That class was counted before the wave, and is not counted behind it.
  | loaded hfound _ _ =>
    rw [unloaded, h.wave.classpath]
    refine countP_lt_countP (a := name) (fun n hn => ?_) ?_ ?_ ?_
    · rw [Bool.not_eq_true'] at hn ⊢
      exact Bool.eq_false_iff.2 fun hold => Bool.eq_false_iff.1 hn (h.contains hs hold)
    · exact Std.HashMap.mem_keys.2 (contains_classpath_iff.2 ⟨_, hfound⟩)
    · simp [contains_iff.2 ⟨_, hget⟩]
    · simp [hnew.new]
  | skipped | missing | failed => cases hloaded

/-- With something left to spend, the next wave is spent on. -/
theorem fetchFrom_succ (fuel : Nat) (s : Loading) :
    fetchFrom (fuel + 1) s.catalog s.report s.due = match s.next with
      | none => (s.report, s.catalog)
      | some s' => fetchFrom fuel s'.catalog s'.report s'.due := by
  simp only [fetchFrom, next]
  split <;> rfl

/-- With more waves to spend than classes to load the waves come to an end. -/
theorem endsAt_fetchFrom (fuel : Nat) (hs : s.Pending)
    (h : s.due.isEmpty ∨ unloaded s.catalog + 2 ≤ fuel) :
    ∃ s', EndsAt next s s' ∧ fetchFrom fuel s.catalog s.report s.due = (s'.report, s'.catalog) := by
  induction fuel generalizing s with
  | zero =>
    -- Nothing is left to spend, so nothing is due.
    have hdue := h.resolve_right (by omega)
    exact ⟨s, .stop (if_pos hdue), rfl⟩
  | succ fuel ih =>
    rw [fetchFrom_succ]
    cases hnext : s.next with
    | none => exact ⟨s, .stop hnext, rfl⟩
    | some s₁ =>
      obtain ⟨outcomes, hstep⟩ := exists_step hs hnext
      have hfuel := h.resolve_left hstep.due
      obtain ⟨s', hends, hresult⟩ := ih hstep.pending (or_iff_not_imp_left.2 fun hdue => by
        have := hstep.unloaded_lt hs hdue
        omega)
      exact ⟨s', .pass hnext hends, hresult⟩

end Loading

/-- Where loading starts: what the registered classes need is due. -/
def loading (c : Catalog) : Loading where
  catalog := c
  due := c.classes.foldl c.requestFor {}

/-- What is due at the start is not registered. -/
theorem pending_loading (c : Catalog) : c.loading.Pending := by
  intro n hn
  obtain ⟨_, _, _, hopen⟩ := ((mem_foldl_requestFor _).1 hn).resolve_left not_mem_empty
  exact hopen

/-- The waves come to an end, and with it the classes are loaded. -/
theorem endsAt_loadNeeded (c : Catalog) : ∃ s, EndsAt Loading.next c.loading s ∧
    c.loadNeeded = (s.report, s.catalog) := by
  refine Loading.endsAt_fetchFrom (c.classpath.size + 2) c.pending_loading (.inr ?_)
  have hle := List.countP_le_length (p := fun n => !c.contains n) (l := c.classpath.keys)
  rw [Std.HashMap.length_keys] at hle
  exact Nat.add_le_add_right hle 2

end Relabel.Catalog
