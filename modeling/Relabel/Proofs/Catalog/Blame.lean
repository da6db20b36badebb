import Relabel.Proofs.Catalog.FromRoots

/-!
# Whom a missing class is blamed on

Of the classes that ask for a class in one wave the first in the order of their names is kept, and
it is blamed if the class is missing. A class is missing only if one of those that ask for it has it
as a supertype, but that need not be the first: a root may ask for it as the owner of a member. What
a wave loads has no references, so behind the first wave all that ask are subtypes.

## Main results

- `Catalog.referencedBy_foldl_requestFor`: the first class that asks is kept.
- `Catalog.Loading.Step.missing`: what a wave reports as missing was due and required.
- `Catalog.Blaming.step`: one wave, by what is due and what is reported behind it.
- `Catalog.blames_of_fillGaps`: the class that is blamed, and when it is a subtype.
-/

namespace Relabel

namespace Catalog

variable {c : Catalog} {s s' : Loading} {n referencedBy : String} {due : Requests}
  {required : Bool} {shape : ClassShape} {outcomes : List (String × Request × FetchResult)}

/-! ### The first that asks -/

/-- The class that is kept as the one that asked first. -/
def referencedBy? (due : Requests) (n : String) : Option String :=
  due[n]?.map (·.referencedBy)

/-- A request keeps the class that asked before. -/
theorem referencedBy_request (h : c.Open n) (name : String) :
    referencedBy? (c.request referencedBy required due name) n =
      (referencedBy? due n).or (if name = n then some referencedBy else none) := by
  unfold referencedBy? request
  -- The name that is asked for may be new to what is due, any other is as it was.
  by_cases heq : name = n
  · subst heq
    rw [if_neg (by simp [h.not_array, h.new])]
    cases due[name]? <;> simp
  · rw [if_neg heq, Option.or_none]
    split
    · rfl
    · split <;> simp [Std.TreeMap.getElem?_insert, heq]

/-- Requests for several names leave the first referrer of each. -/
theorem referencedBy_foldl_request (h : c.Open n) (names : List String) :
    referencedBy? (names.foldl (c.request referencedBy required) due) n =
      (referencedBy? due n).or (if n ∈ names then some referencedBy else none) := by
  induction names generalizing due with
  | nil => simp
  | cons name rest ih =>
    rw [List.foldl_cons, ih, referencedBy_request h, Option.or_assoc]
    by_cases heq : name = n
    · simp [heq]
    · simp [heq, Ne.symm heq]

/-- The first shape that asks for a name becomes its referrer. -/
theorem referencedBy_requestFor (h : c.Open n) (due : Requests) (shape : ClassShape) :
    referencedBy? (c.requestFor due shape) n =
      (referencedBy? due n).or (if Asks shape n then some shape.name else none) := by
  have hasks : Asks shape n ↔ n ∈ shape.supertypes ∨ n ∈ memberOwners shape :=
    or_congr_right mem_memberOwners.symm
  rw [requestFor, referencedBy_foldl_request h, referencedBy_foldl_request h, Option.or_assoc]
  by_cases hsuper : n ∈ shape.supertypes
  · simp [hasks, hsuper]
  · simp [hasks, hsuper]

/-- Of classes that ask one after the other the first is kept. -/
theorem referencedBy_foldl_requestFor (h : c.Open n) (shapes : List ClassShape) (due : Requests) :
    referencedBy? (shapes.foldl c.requestFor due) n =
      (referencedBy? due n).or ((shapes.find? (Asks · n)).map (·.name)) := by
  induction shapes generalizing due with
  | nil => simp
  | cons shape rest ih =>
    rw [List.foldl_cons, ih, referencedBy_requestFor h, Option.or_assoc, List.find?_cons]
    by_cases hasks : Asks shape n <;> simp [hasks]

/-- What becomes due is due because of the first class that asks for it. -/
theorem exists_first (shapes : List ClassShape) {p : Request}
    (h : (shapes.foldl c.requestFor {})[n]? = some p) :
    ∃ shape, shapes.find? (Asks · n) = some shape ∧ p.referencedBy = shape.name := by
  have hdue : n ∈ shapes.foldl c.requestFor {} := by
    rw [Std.TreeMap.mem_iff_isSome_getElem?, h]
    rfl
  -- A name that has become due is open, so the requests for it all count.
  obtain ⟨_, _, _, hopen⟩ := ((mem_foldl_requestFor shapes).1 hdue).resolve_left not_mem_empty
  have hfirst := referencedBy_foldl_requestFor hopen shapes {}
  rw [referencedBy?, h, referencedBy?, Std.TreeMap.getElem?_emptyc, Option.map_none,
    Option.none_or, Option.map_some] at hfirst
  obtain ⟨shape, hshape, hname⟩ := Option.map_eq_some_iff.1 hfirst.symm
  exact ⟨shape, hshape, hname.symm⟩

/-! ### What a wave reports -/

/-- What is noted as unresolved was so before, or a missing class of the wave. -/
theorem unresolved_foldl_note (before : LoadReport × Requests)
    (h : (outcomes.foldl c.note before).1.unresolved[n]? = some referencedBy) :
    before.1.unresolved[n]? = some referencedBy ∨
      ∃ request, (n, request, .missing) ∈ outcomes ∧ request.referencedBy = referencedBy := by
  induction outcomes generalizing before with
  | nil => exact .inl h
  | cons o rest ih =>
    obtain ⟨name, request, result⟩ := o
    rcases ih _ h with hbefore | ⟨request', hmem, hby⟩
    -- Only a missing class is noted, and only if its name was not noted before.
    · cases result with
      | missing =>
        rw [note, Std.TreeMap.getElem?_insertIfNew] at hbefore
        split at hbefore
        · next hnew =>
          obtain rfl := Std.LawfulEqCmp.eq_of_compare hnew.1
          exact .inr ⟨request, List.mem_cons_self, Option.some.inj hbefore⟩
        · exact .inl hbefore
      | loaded | skipped | failed => exact .inl hbefore
    · exact .inr ⟨request', List.mem_cons_of_mem _ hmem, hby⟩

/-- What a wave reports as missing was due and required, and is not on the classpath. -/
theorem Loading.Step.missing (h : s.Step outcomes s')
    (hnotes : outcomes.foldl s'.catalog.note (s.report, {}) = (s'.report, s'.due))
    (hn : s'.report.unresolved[n]? = some referencedBy) :
    s.report.unresolved[n]? = some referencedBy ∨
      ∃ p, s.due[n]? = some p ∧ p.required ∧ p.referencedBy = referencedBy ∧
        s.catalog.classpath[n]? = none := by
  have hn : (outcomes.foldl s'.catalog.note (s.report, {})).1.unresolved[n]? =
      some referencedBy := by
    rw [hnotes]
    exact hn
  refine (unresolved_foldl_note _ hn).imp_right ?_
  rintro ⟨request, hmem, hby⟩
  have hentry : (n, request) ∈ s.due.toList := by
    rw [← h.wave.entries]
    exact List.mem_map_of_mem (f := fun o : String × Request × FetchResult => (o.1, o.2.1)) hmem
  -- A missing class is asked for as a supertype, for an optional one is skipped.
  obtain ⟨hfetched, -⟩ := h.wave.fetched _ hmem
  cases hfetched with
  | missing hnone hrequired =>
    exact ⟨request, Std.TreeMap.mem_toList_iff_getElem?_eq_some.1 hentry, hrequired, hby, hnone⟩

/-! ### Who is blamed -/

/-- Whom a missing class is blamed on: on the first root that asks for it, where a root has it as a
supertype, and else on a class that has. -/
structure BlamedOn (c : Catalog) (n : String) (shape : ClassShape) : Prop where
  first : (∃ heir ∈ c.classes, n ∈ heir.supertypes) →
    c.classes.find? (Asks · n) = some shape
  subtype : (∀ heir ∈ c.classes, n ∉ heir.supertypes) → n ∈ shape.supertypes

/-- A shape that is found among those that ask for a name does so. -/
theorem asks_of_find? {shapes : List ClassShape} (h : shapes.find? (Asks · n) = some shape) :
    Asks shape n := by
  have hasks := List.find?_some h
  exact of_decide_eq_true hasks

/-- The class that is blamed asks for the name. -/
theorem BlamedOn.asks (h : c.BlamedOn n shape) : Asks shape n := by
  by_cases hheir : ∃ heir ∈ c.classes, n ∈ heir.supertypes
  · exact asks_of_find? (h.first hheir)
  · push Not at hheir
    exact .inl (h.subtype hheir)

/-- A missing class is blamed on the registered class with a name. -/
def Blamed (c loaded : Catalog) (n referencedBy : String) : Prop :=
  ∃ shape, shape.name = referencedBy ∧ loaded.get? referencedBy = some shape ∧ c.BlamedOn n shape

/-- However far loading has come, what is missing is blamed on such a class. -/
structure Blaming (c : Catalog) (s : Loading) : Prop where
  underway : c.Underway s
  /-- A missing supertype of a root is due, or there is a stand-in for it. -/
  heirs : ∀ heir ∈ c.classes, ∀ n ∈ heir.supertypes, ¬ ClassShape.isArray n →
    c.classpath[n]? = none → s.catalog.contains n ∨ Requires s.due n
  due : ∀ n p, s.due[n]? = some p → p.required → c.classpath[n]? = none →
    c.Blamed s.catalog n p.referencedBy
  unresolved : ∀ n referencedBy, s.report.unresolved[n]? = some referencedBy →
    c.Blamed s.catalog n referencedBy

/-- Before the first wave the blame lies as it should. -/
theorem blaming_loading {P : ClassShape → Prop} (hc : c.All P) : c.Blaming c.loading where
  underway := underway_loading c
  -- The roots have asked for their supertypes, so a name is known or asked for.
  heirs heir hheir n hn harray _ := by
    by_cases hold : c.contains n
    · exact .inl hold
    · exact .inr ((requires_foldl_requestFor _).2 (.inr ⟨heir, hheir, hn, harray, hold⟩))
  due n p hp hrequired _ := by
    obtain ⟨shape, hshape, hname⟩ := exists_first c.classes hp
    obtain ⟨key, hkey⟩ := mem_classes.1 (List.mem_of_find?_eq_some hshape)
    obtain ⟨rfl, -⟩ := hc key shape hkey
    obtain ⟨heir, hheir, hn, -⟩ :=
      ((requires_foldl_requestFor _).1 ⟨p, hp, hrequired⟩).resolve_left not_requires_empty
    exact ⟨shape, hname.symm, hname ▸ hkey, fun _ => hshape,
      fun hnone => absurd hn (hnone heir hheir)⟩
  unresolved n referencedBy h := by
    rw [loading, Std.TreeMap.getElem?_emptyc] at h
    cases h

namespace Blaming

/-- A missing supertype of a root has a stand-in behind the first wave. -/
theorem contains_of_heir (h : c.Blaming s) (hstep : s.Step outcomes s') {heir : ClassShape}
    (hheir : heir ∈ c.classes) (hn : n ∈ heir.supertypes) (harray : ¬ ClassShape.isArray n)
    (hnone : c.classpath[n]? = none) : s'.catalog.contains n := by
  -- The supertype was known before the wave, or is required by it.
  rcases h.heirs heir hheir n hn harray hnone with hold | hrequired
  · exact hstep.contains h.underway.pending hold
  obtain ⟨request, result, -, hrequest, hfetched, hget⟩ := hstep.exists_outcome hrequired.mem
  rw [h.underway.classpath] at hfetched
  cases hfetched with
  | missing => exact contains_iff.2 ⟨_, hget⟩
  | skipped _ hoptional =>
    obtain ⟨p, hp, hrequired⟩ := hrequired
    obtain rfl := Option.some.inj (hrequest.symm.trans hp)
    exact absurd hrequired hoptional
  | loaded hfound => cases hnone.symm.trans hfound
  | failed hfound => cases hnone.symm.trans hfound

/-- A class that is registered stays so. -/
theorem blamed (h : c.Blaming s) (hstep : s.Step outcomes s')
    (hn : c.Blamed s.catalog n referencedBy) : c.Blamed s'.catalog n referencedBy := by
  obtain ⟨shape, hname, hget, hblamed⟩ := hn
  refine ⟨shape, hname, ?_, hblamed⟩
  rw [hstep.kept fun hdue => (h.underway.pending _ hdue).new (contains_iff.2 ⟨shape, hget⟩), hget]

/-- One more wave. -/
theorem step (h : c.Blaming s) (hstep : s.Step outcomes s')
    (hnotes : outcomes.foldl s'.catalog.note (s.report, {}) = (s'.report, s'.due)) :
    c.Blaming s' where
  underway := h.underway.step hstep
  heirs heir hheir n hn harray hnone := .inl (h.contains_of_heir hstep hheir hn harray hnone)
  due n p hp _ hnone := by
    have hopen : s'.catalog.Open n := hstep.pending n (by
      rw [Std.TreeMap.mem_iff_isSome_getElem?, hp]
      rfl)
    rw [hstep.due_eq] at hp
    -- The referrer is the first of the classes that the wave has loaded.
    obtain ⟨shape, hshape, hname⟩ := exists_first (loadedIn outcomes) hp
    have hloads := hstep.loads_of_mem (List.mem_of_find?_eq_some hshape)
    obtain ⟨found, -, hdecode⟩ := hloads.decoded
    -- A class of the classpath asks for its supertypes only.
    have hsuper : n ∈ shape.supertypes := (asks_of_find? hshape).resolve_right (by
      simp [RefersInto, ClassShape.references_of_decode hdecode])
    refine ⟨shape, hname.symm, hname ▸ hloads.registered, ?_, fun _ => hsuper⟩
    rintro ⟨heir, hheir, hn⟩
    exact absurd (h.contains_of_heir hstep hheir hn hopen.not_array hnone) hopen.new
  unresolved n referencedBy hn := by
    -- Unresolved before the wave, or missing in it and asked for as a supertype.
    rcases hstep.missing hnotes hn with hold | ⟨p, hp, hrequired, rfl, hnone⟩
    · exact h.blamed hstep (h.unresolved n referencedBy hold)
    · rw [h.underway.classpath] at hnone
      exact h.blamed hstep (h.due n p hp hrequired hnone)

end Blaming

/-- The blame lies as it should when the loading ends. -/
theorem blaming_of_endsAt (h : c.Blaming s) (hends : EndsAt Loading.next s s') :
    c.Blaming s' := by
  refine hends.invariant (fun s s' hnext hs => ?_) h
  obtain ⟨hstep, hnotes⟩ := Loading.step_of_next hs.underway.pending hnext
  exact hs.step hstep hnotes

/-! ### The report -/

/-- A problem blames a missing class on a registered class that asks for it: the first root that
does where a root has it as a supertype, and else a subtype. -/
structure Blames (c filled : Catalog) (problem : Problem) (n : String) (shape : ClassShape) :
    Prop where
  problem_eq : problem = .missingClass n shape.name
  registered : filled.get? shape.name = some shape
  asks : Asks shape n
  blamedOn : c.BlamedOn n shape
  /-- It is no subtype where a root has the class as a supertype, but the first root that asks for
  it does so for a member only. -/
  subtype_iff : n ∈ shape.supertypes ↔ ¬ ((∃ heir ∈ c.classes, n ∈ heir.supertypes) ∧
    ∃ user, c.classes.find? (Asks · n) = some user ∧ n ∉ user.supertypes)

/-- Whether the blamed class is a subtype depends on the first that asks. -/
theorem BlamedOn.subtype_iff (h : c.BlamedOn n shape) :
    n ∈ shape.supertypes ↔ ¬ ((∃ heir ∈ c.classes, n ∈ heir.supertypes) ∧
      ∃ user, c.classes.find? (Asks · n) = some user ∧ n ∉ user.supertypes) := by
  by_cases hheir : ∃ heir ∈ c.classes, n ∈ heir.supertypes
  · simp [h.first hheir, hheir]
  · simp only [hheir, false_and, not_false_eq_true, iff_true]
    push Not at hheir
    exact h.subtype hheir

/-- A class that asks for others is no stand-in, so filling gaps leaves it as it is. -/
theorem Underway.get?_fillGaps_of_asks (h : c.Underway s)
    (hget : s.catalog.get? shape.name = some shape) (hasks : Asks shape n) (resolveMissing : Bool) :
    (s.catalog.fillGaps s.report.unresolved resolveMissing).2.get? shape.name = some shape := by
  rw [(fillsGaps_fillGaps _ _ _).get?, if_neg, hget]
  rintro ⟨hunresolved, -⟩
  obtain ⟨-, hnew, hnone⟩ := (h.unresolved _).1 hunresolved
  -- A root is not new, a class of the classpath is not missing, and a stand-in asks for nothing.
  rcases h.shown _ shape hget with (hroot | ⟨-, found, hfound, -⟩) | ⟨-, -, hgap⟩
  · exact hnew (contains_iff.2 ⟨shape, hroot⟩)
  · cases hfound.symm.trans hnone
  · rw [hgap] at hasks
    rcases hasks with hsuper | ⟨kind, key, hkey, -⟩
    · cases hsuper
    · cases hkey

/-- Every problem of the gaps is blamed as `Blames` says. -/
theorem blames_of_all {P : ClassShape → Prop} (hc : c.All P) (resolveMissing : Bool)
    {problem : Problem}
    (h : problem ∈ (c.loadNeeded.2.fillGaps c.loadNeeded.1.unresolved resolveMissing).1) :
    ∃ n shape, c.Blames (c.loadNeeded.2.fillGaps c.loadNeeded.1.unresolved resolveMissing).2
      problem n shape := by
  obtain ⟨s, hends, hloaded⟩ := endsAt_loadNeeded c
  have hend : c.Blaming s := blaming_of_endsAt (blaming_loading hc) hends
  rw [hloaded] at h ⊢
  rw [(fillsGaps_fillGaps _ _ _).problems] at h
  obtain ⟨⟨n, referencedBy⟩, hentry, rfl⟩ := List.mem_map.1 h
  have hn := Std.TreeMap.mem_toList_iff_getElem?_eq_some.1 (List.mem_of_mem_filter hentry)
  -- What is unresolved in the end was blamed on a class that is still there.
  obtain ⟨shape, rfl, hget, hblamed⟩ := hend.unresolved n referencedBy hn
  exact ⟨n, shape, rfl, hend.underway.get?_fillGaps_of_asks hget hblamed.asks resolveMissing,
    hblamed.asks, hblamed, hblamed.subtype_iff⟩

end Catalog

/-- Whatever the inputs and the classpath, each class that is reported to be missing is blamed on a
registered class that asks for it. That is a subtype, unless an input has the class as a supertype
and the first input that asks for it does so for a member only. -/
theorem Catalog.blames_of_fillGaps (inputs classpath : List LocatedClass) (resolveMissing : Bool)
    {c : Catalog} (hc : c = (enrol (.ofClasspath classpath) inputs).catalog) {problem : Problem}
    (h : problem ∈ (c.loadNeeded.2.fillGaps c.loadNeeded.1.unresolved resolveMissing).1) :
    ∃ n shape, c.Blames (c.loadNeeded.2.fillGaps c.loadNeeded.1.unresolved resolveMissing).2
      problem n shape := by
  have hall : c.All fun _ => True := by
    rw [hc]
    refine all_enrol (fun name shape hshape => ?_) fun _ _ _ _ => trivial
    cases hshape
  exact blames_of_all hall resolveMissing h

/-! ### A user and an heir

`A` calls a method of the missing class `M`, and `B` extends it. -/

namespace Catalog

/-- The class file of `A`. -/
def userEntry : LocatedClass where
  name := "A"
  location := "in.jar"
  bytes := [0xca, 0xfe, 0xba, 0xbe, 0, 0, 0, 52, 0, 9, 1, 0, 1, 65, 7, 0, 1, 1, 0, 1, 77, 7, 0, 3,
    1, 0, 1, 109, 1, 0, 3, 40, 41, 86, 12, 0, 5, 0, 6, 10, 0, 4, 0, 7,
    0, 0x21, 0, 2, 0, 0, 0, 0, 0, 0, 0, 0, 0, 0]

/-- The class file of `B`. -/
def heirEntry : LocatedClass where
  name := "B"
  location := "in.jar"
  bytes := [0xca, 0xfe, 0xba, 0xbe, 0, 0, 0, 52, 0, 5, 1, 0, 1, 66, 7, 0, 1, 1, 0, 1, 77, 7, 0, 3,
    0, 0x21, 0, 2, 0, 4, 0, 0, 0, 0, 0, 0, 0, 0]

/-- What `userEntry` holds. -/
def userOfMissing : ClassShape :=
  { name := "A", access := ⟨0x21⟩, origin := .input,
    references := [.ofClass "M", .ofMember .method ⟨"M", "m", "()V"⟩] }

/-- What `heirEntry` holds. -/
def heirOfMissing : ClassShape :=
  { name := "B", access := ⟨0x21⟩, superName := some "M", origin := .input,
    references := [.ofClass "M"] }

/-- References that are in order, each once, stay so. -/
theorem sorted_eq_self {references : List Reference}
    (hordered : references.Pairwise fun a b => Text.precedes a.sortKey b.sortKey)
    (honce : references.eraseReps = references) : Reference.sorted references = references := by
  rw [Reference.sorted, List.mergeSort_of_pairwise hordered, honce]

theorem decode_userEntry : ClassShape.decode userEntry.bytes .input = .ok userOfMissing := by
  show Except.ok { userOfMissing with references := Reference.sorted userOfMissing.references } = _
  rw [sorted_eq_self (by decide) (by decide)]

theorem decode_heirEntry : ClassShape.decode heirEntry.bytes .input = .ok heirOfMissing := by
  show Except.ok { heirOfMissing with references := Reference.sorted heirOfMissing.references } = _
  rw [sorted_eq_self (by decide) (by decide)]

/-- The catalog with both. -/
def userAndHeir : Catalog :=
  (enrol (.ofClasspath []) [userEntry, heirEntry]).catalog

/-- The catalog is that of the two classes. -/
theorem userAndHeir_eq : userAndHeir = ((ofClasspath []).put userOfMissing).put heirOfMissing := by
  simp only [userAndHeir, enrol, decode_userEntry, decode_heirEntry]
  rfl

/-- `M` is reported to be missing. -/
theorem exists_missing_userAndHeir : ∃ referencedBy, .missingClass "M" referencedBy ∈
    (userAndHeir.loadNeeded.2.fillGaps userAndHeir.loadNeeded.1.unresolved false).1 := by
  -- The classpath is empty, so nothing can fail to decode.
  have hnone (n : String) : userAndHeir.classpath[n]? = none := by
    rw [userAndHeir_eq]
    exact getElem?_ofClasspath [] n
  have hlaid : userAndHeir.WellLaid := fun n found hfound => by cases (hnone n).symm.trans hfound
  have hproblems := problems_loadNeeded hlaid
  have hheir : userAndHeir.get? "B" = some heirOfMissing := by
    rw [userAndHeir_eq]
    rfl
  have hnew : ¬ userAndHeir.contains "M" := by
    rw [userAndHeir_eq]
    decide
  obtain ⟨s, hends, hloaded⟩ := endsAt_loadNeeded userAndHeir
  have hend : userAndHeir.Underway s := underway_of_endsAt (underway_loading _) hends
  rw [hloaded] at hproblems ⊢
  have hdue := not_mem_due_of_next hends.next_eq_none
  -- `B` needs its supertype `M`, which is known when the loading ends.
  have hgap : s.catalog.contains "M" := by
    rcases hend.supertypes "B" heirOfMissing (hend.roots _ _ hheir) "M" (by decide) (by decide) with
      hold | hrequired | hne
    · exact hold
    · exact absurd hrequired.mem (hdue _)
    · exact absurd hproblems hne
  have hunresolved := (hend.unresolved "M").2 ⟨hgap, hnew, hnone "M"⟩
  rw [Std.TreeMap.mem_iff_isSome_getElem?, Option.isSome_iff_exists] at hunresolved
  obtain ⟨referencedBy, hby⟩ := hunresolved
  refine ⟨referencedBy, ?_⟩
  rw [(fillsGaps_fillGaps _ _ _).problems]
  have hreported : mayBeMissing false "M" = false := by decide +kernel
  refine List.mem_map.2 ⟨("M", referencedBy), List.mem_filter.2 ⟨?_, by rw [hreported]; rfl⟩, rfl⟩
  exact Std.TreeMap.mem_toList_iff_getElem?_eq_some.2 hby

/-- `M` is blamed on `A`, which is no subtype of it, and not on `B`. -/
theorem blames_of_fillGaps_userAndHeir :
    userAndHeir.Blames
        (userAndHeir.loadNeeded.2.fillGaps userAndHeir.loadNeeded.1.unresolved false).2
        (.missingClass "M" "A") "M" userOfMissing ∧
      .missingClass "M" "A" ∈
        (userAndHeir.loadNeeded.2.fillGaps userAndHeir.loadNeeded.1.unresolved false).1 ∧
      "M" ∉ userOfMissing.supertypes ∧ "M" ∈ heirOfMissing.supertypes := by
  obtain ⟨referencedBy, hmissing⟩ := exists_missing_userAndHeir
  obtain ⟨n, shape, hblames⟩ :=
    blames_of_fillGaps [userEntry, heirEntry] [] false (c := userAndHeir) rfl hmissing
  obtain ⟨rfl, rfl⟩ := Problem.missingClass.inj hblames.problem_eq
  -- `A` stands before `B`, and asks for `M` as well.
  have hclasses : userAndHeir.classes = [userOfMissing, heirOfMissing] := by
    rw [userAndHeir_eq]
    rfl
  have hfirst := hblames.blamedOn.first ⟨heirOfMissing, by rw [hclasses]; simp, by decide⟩
  rw [hclasses] at hfirst
  obtain rfl : userOfMissing = shape := Option.some.inj hfirst
  exact ⟨hblames, hmissing, by decide, by decide⟩

end Catalog

end Relabel
