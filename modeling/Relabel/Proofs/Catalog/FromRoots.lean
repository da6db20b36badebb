import Relabel.Proofs.Catalog.Needed

/-!
# Loading from a classpath and roots

A catalog starts with the roots and a classpath, of whose entries with one name the first counts.
Loading brings in what the roots need. Afterwards the classes that were not found get stand-ins,
where they may be missing, or are reported.

## Main results

- `Catalog.fillsGaps_fillGaps`: what becomes of the classes that were not found.
- `Catalog.get?_fillGaps_loadNeeded`: a root stays what it is.
- `Catalog.loadsAll_ofRoots`: loading and filling gaps, from the start to the end.
- `Catalog.problems_loadNeeded`: a classpath whose entries hold what their paths say makes no
  problem.
-/

namespace Relabel.Catalog

variable {c : Catalog} {s s' : Loading} {outcomes : List (String × Request × FetchResult)}

/-! ### Gaps -/

/-- Whether a class that was not found may be missing. -/
def mayBeMissing (resolveMissing : Bool) (n : String) : Bool :=
  resolveMissing || belongsToPlatform n

/-- Of the classes that were not found those that may be missing get a public stand-in, and each
other is a problem, in the order of their names. -/
structure FillsGaps (c : Catalog) (unresolved : Std.TreeMap String String) (resolveMissing : Bool)
    (problems : List Problem) (filled : Catalog) : Prop where
  get? : ∀ n, filled.get? n =
    if n ∈ unresolved ∧ mayBeMissing resolveMissing n then some (.standIn n .synthetic)
    else c.get? n
  problems : problems = (unresolved.toList.filter fun e => !mayBeMissing resolveMissing e.1).map
    fun e => .missingClass e.1 e.2
  ordered : (unresolved.toList.map Prod.fst).Pairwise (· < ·)

/-- One gap. -/
def fillGap (resolveMissing : Bool) (state : List Problem × Catalog) (entry : String × String) :
    List Problem × Catalog :=
  if mayBeMissing resolveMissing entry.1 then
    (state.1, state.2.put (.standIn entry.1 .synthetic))
  else (.missingClass entry.1 entry.2 :: state.1, state.2)

/-- Filling the gaps goes over the unresolved names in order and turns the problems round. -/
theorem fillGaps_eq (c : Catalog) (unresolved : Std.TreeMap String String) (resolveMissing : Bool) :
    c.fillGaps unresolved resolveMissing =
      let state := unresolved.toList.foldl (fillGap resolveMissing) ([], c)
      (state.1.reverse, state.2) :=
  rfl

/-- Filling one gap gives its name a stand-in where that is allowed, and leaves the others. -/
theorem get?_fillGap (resolveMissing : Bool) (state : List Problem × Catalog)
    (entry : String × String) (n : String) : (fillGap resolveMissing state entry).2.get? n =
      if n = entry.1 ∧ mayBeMissing resolveMissing n then some (.standIn n .synthetic)
      else state.2.get? n := by
  unfold fillGap
  by_cases heq : n = entry.1
  · subst heq
    split <;> simp_all [get?_put, ClassShape.standIn]
  · split
    · simp [get?_put, ClassShape.standIn, heq, Ne.symm heq]
    · simp [heq]

/-- Filling gaps gives every listed name a stand-in where that is allowed. -/
theorem get?_foldl_fillGap (resolveMissing : Bool) (entries : List (String × String))
    (state : List Problem × Catalog) (n : String) :
    (entries.foldl (fillGap resolveMissing) state).2.get? n =
      if n ∈ entries.map Prod.fst ∧ mayBeMissing resolveMissing n then
        some (.standIn n .synthetic)
      else state.2.get? n := by
  induction entries generalizing state with
  | nil => simp
  | cons e rest ih =>
    rw [List.foldl_cons, ih, get?_fillGap]
    -- A name that is listed again later is filled then, or may not be filled at all.
    by_cases hrest : n ∈ rest.map Prod.fst
    · by_cases hfill : mayBeMissing resolveMissing n
      · simp only [hrest, hfill, List.map_cons, List.mem_cons, or_true, and_true, if_true]
      · simp only [hfill, and_false, Bool.false_eq_true, if_false]
    · simp only [hrest, List.map_cons, List.mem_cons, or_false, false_and, if_false]

/-- The problems are the listed names that may not be missing, in the order of the list. -/
theorem problems_foldl_fillGap (resolveMissing : Bool) (entries : List (String × String))
    (state : List Problem × Catalog) :
    (entries.foldl (fillGap resolveMissing) state).1.reverse = state.1.reverse ++
      (entries.filter fun e => !mayBeMissing resolveMissing e.1).map
        fun e => .missingClass e.1 e.2 := by
  induction entries generalizing state with
  | nil => simp
  | cons e rest ih =>
    rw [List.foldl_cons, ih, fillGap]
    -- A name that may be missing is no problem.
    by_cases hfill : mayBeMissing resolveMissing e.1
    · simp [hfill]
    · simp [hfill]

/-- Filling the gaps is as `FillsGaps` says. -/
theorem fillsGaps_fillGaps (c : Catalog) (unresolved : Std.TreeMap String String)
    (resolveMissing : Bool) : c.FillsGaps unresolved resolveMissing
      (c.fillGaps unresolved resolveMissing).1 (c.fillGaps unresolved resolveMissing).2 where
  get? n := by
    rw [fillGaps_eq]
    refine (get?_foldl_fillGap resolveMissing unresolved.toList ([], c) n).trans ?_
    simp only [Std.TreeMap.map_fst_toList_eq_keys, Std.TreeMap.mem_keys]
  problems := problems_foldl_fillGap resolveMissing unresolved.toList ([], c)
  ordered := by
    rw [Std.TreeMap.map_fst_toList_eq_keys]
    have hkeys : unresolved.keys.Pairwise fun a b => compare a b = .lt :=
      Std.TreeMap.ordered_keys
    exact hkeys.imp compareOfLessAndEq_eq_lt.1

/-- A root is still registered after loading and filling gaps: it was never missing. -/
theorem get?_fillGaps_loadNeeded {n : String} {shape : ClassShape} (h : c.get? n = some shape)
    (resolveMissing : Bool) :
    (c.loadNeeded.2.fillGaps c.loadNeeded.1.unresolved resolveMissing).2.get? n = some shape := by
  obtain ⟨s, hends, hloaded⟩ := endsAt_loadNeeded c
  have hend : c.Underway s := underway_of_endsAt (underway_loading c) hends
  rw [hloaded, (fillsGaps_fillGaps _ _ _).get?, if_neg, hend.roots n shape h]
  rintro ⟨hunresolved, -⟩
  obtain ⟨-, hnew, -⟩ := (hend.unresolved n).1 hunresolved
  exact hnew (contains_iff.2 ⟨shape, h⟩)

/-! ### From the classpath and the roots -/

/-- A catalog with a classpath and roots. -/
def ofRoots (found : List LocatedClass) (roots : List ClassShape) : Catalog :=
  roots.foldl (fun c shape => (c.register shape).catalog) (ofClasspath found)

/-- Of several classpath entries with one name the first stays. -/
theorem getElem?_foldl_insertIfNew (found : List LocatedClass)
    (classpath : Std.HashMap String LocatedClass) (n : String) :
    (found.foldl (fun map c => map.insertIfNew c.name c) classpath)[n]? =
      classpath[n]?.or (found.find? (·.name = n)) := by
  induction found generalizing classpath with
  | nil => simp
  | cons entry rest ih =>
    rw [List.foldl_cons, ih, Std.HashMap.getElem?_insertIfNew, List.find?_cons]
    -- The entry takes its name unless one stood there before.
    by_cases hname : entry.name = n
    · subst hname
      by_cases hold : entry.name ∈ classpath <;> simp [hold]
    · simp [hname]

/-- The classpath gives a name its first entry. -/
theorem getElem?_ofClasspath (found : List LocatedClass) (n : String) :
    (ofClasspath found).classpath[n]? = found.find? (·.name = n) := by
  rw [ofClasspath, getElem?_foldl_insertIfNew]
  simp

/-- A class is registered unless its name is taken. -/
theorem get?_register (c : Catalog) (shape : ClassShape) (n : String) :
    (c.register shape).catalog.get? n =
      (c.get? n).or (if shape.name = n then some shape else none) := by
  rw [register_eq_commit, commit]
  by_cases hname : shape.name = n
  · subst hname
    cases hold : c.get? shape.name with
    | some old => simp [hold]
    | none => simp [get?_put]
  · split <;> simp [get?_put, hname]

/-- Of several roots with one name the first stays. -/
theorem get?_foldl_register (roots : List ClassShape) (c : Catalog) (n : String) :
    (roots.foldl (fun c shape => (c.register shape).catalog) c).get? n =
      (c.get? n).or (roots.find? (·.name = n)) := by
  induction roots generalizing c with
  | nil => simp
  | cons shape rest ih =>
    rw [List.foldl_cons, ih, get?_register, Option.or_assoc, List.find?_cons]
    by_cases hname : shape.name = n
    · simp [hname]
    · simp [hname]

/-- Registering leaves the classpath as it is. -/
theorem classpath_foldl_register (roots : List ClassShape) (c : Catalog) :
    (roots.foldl (fun c shape => (c.register shape).catalog) c).classpath = c.classpath := by
  refine List.foldlRecOn (motive := fun e : Catalog => e.classpath = c.classpath) _ _ rfl ?_
  intro e he shape _
  rw [register_eq_commit, commit]
  split <;> exact he

/-- Roots with different names are all registered. -/
theorem get?_ofRoots {found : List LocatedClass} {roots : List ClassShape}
    (hroots : roots.Pairwise fun a b => a.name ≠ b.name) {n : String} {shape : ClassShape} :
    (ofRoots found roots).get? n = some shape ↔ shape ∈ roots ∧ shape.name = n := by
  have hnone : (ofClasspath found).get? n = none := by simp [ofClasspath, get?]
  rw [ofRoots, get?_foldl_register, hnone, Option.none_or]
  constructor
  · intro h
    have hname := List.find?_some h
    exact ⟨List.mem_of_find?_eq_some h, of_decide_eq_true hname⟩
  -- No root before this one has its name, so it is the first that is found.
  · rintro ⟨hmem, rfl⟩
    obtain ⟨before, after, rfl⟩ := List.append_of_mem hmem
    have hbefore : ∀ other ∈ before, other.name ≠ shape.name := fun other hother =>
      (List.pairwise_append.1 hroots).2.2 other hother shape List.mem_cons_self
    rw [List.find?_append, List.find?_eq_none.2 (by simpa using hbefore)]
    simp

/-- Loading what the roots need, and filling gaps, from the start to the end. -/
structure LoadsAll (found : List LocatedClass) (roots : List ClassShape) (c : Catalog) : Prop where
  root : ∀ n shape, c.get? n = some shape ↔ shape ∈ roots ∧ shape.name = n
  first : ∀ n, c.classpath[n]? = found.find? (·.name = n)
  /-- Wave after wave, whatever their number. -/
  ends : ∃ s, EndsAt Loading.next c.loading s ∧ c.loadNeeded = (s.report, s.catalog)
  needed : c.loadNeeded.1.problems = [] → c.LoadsNeeded c.loadNeeded.1 c.loadNeeded.2
  gaps : ∀ resolveMissing, c.loadNeeded.2.FillsGaps c.loadNeeded.1.unresolved resolveMissing
    (c.loadNeeded.2.fillGaps c.loadNeeded.1.unresolved resolveMissing).1
    (c.loadNeeded.2.fillGaps c.loadNeeded.1.unresolved resolveMissing).2

/-- From any classpath and any roots with different names loading comes to its end, and without a
problem what it loaded is what the roots need. -/
theorem loadsAll_ofRoots (found : List LocatedClass) (roots : List ClassShape)
    (hroots : roots.Pairwise fun a b => a.name ≠ b.name) :
    LoadsAll found roots (ofRoots found roots) where
  root _ _ := get?_ofRoots hroots
  first n := by
    rw [ofRoots, classpath_foldl_register]
    exact getElem?_ofClasspath found n
  ends := endsAt_loadNeeded _
  needed := by
    obtain ⟨s, hends, hloaded⟩ := endsAt_loadNeeded (ofRoots found roots)
    rw [hloaded]
    exact (underway_of_endsAt (underway_loading _) hends).loadsNeeded
      (not_mem_due_of_next hends.next_eq_none)
  gaps _ := fillsGaps_fillGaps _ _ _

/-! ### Without problems -/

/-- Every entry of the classpath holds the class that its path says. -/
def WellLaid (c : Catalog) : Prop :=
  ∀ n found, c.classpath[n]? = some found →
    ∃ shape, ClassShape.decode found.bytes .classpath = .ok shape ∧ shape.name = n

/-- A step over classes that are found adds no problem. -/
theorem Loading.Step.problems_eq_nil (h : s.Step outcomes s') (hlaid : s.catalog.WellLaid)
    (hproblems : s.report.problems = []) : s'.report.problems = [] := by
  rw [h.notes.problems]
  refine List.append_eq_nil_iff.2 ⟨hproblems, List.filterMap_eq_nil_iff.2 ?_⟩
  rintro ⟨name, request, result⟩ ho
  obtain ⟨hfetched, -⟩ := h.wave.fetched _ ho
  cases hfetched with
  | failed hfound hbad =>
    obtain ⟨shape, hdecode, hname⟩ := hlaid _ _ hfound
    exact absurd hname (hbad shape hdecode)
  | skipped | missing | loaded => rfl

/-- A loading from laid out classes ends without a problem where it began without one. -/
theorem problems_of_endsAt (hends : EndsAt Loading.next s s') (hpending : s.Pending)
    (hlaid : s.catalog.WellLaid) (hproblems : s.report.problems = []) :
    s'.report.problems = [] := by
  induction hends with
  | stop => exact hproblems
  | pass hnext _ ih =>
    obtain ⟨outcomes, hstep⟩ := Loading.exists_step hpending hnext
    refine ih hstep.pending ?_ (hstep.problems_eq_nil hlaid hproblems)
    rwa [WellLaid, hstep.wave.classpath]

/-- From such a classpath classes are loaded without a problem. -/
theorem problems_loadNeeded (h : c.WellLaid) : c.loadNeeded.1.problems = [] := by
  obtain ⟨s, hends, hloaded⟩ := endsAt_loadNeeded c
  rw [hloaded]
  exact problems_of_endsAt hends c.pending_loading h rfl

/-! ### A superclass and an owner on the classpath

`B` extends `A` of the classpath, and that a class `M` which is nowhere. It refers to a method of
`C`, which is no supertype of any class, and nothing needs `D`. -/

/-- The class file of `A`. -/
def baseEntry : LocatedClass where
  name := "A"
  location := "lib.jar"
  bytes := [0xca, 0xfe, 0xba, 0xbe, 0, 0, 0, 52, 0, 5, 1, 0, 1, 65, 7, 0, 1, 1, 0, 1, 77, 7, 0, 3,
    0, 0x21, 0, 2, 0, 4, 0, 0, 0, 0, 0, 0, 0, 0]

/-- What `baseEntry` holds. -/
def loadedBase : ClassShape :=
  { name := "A", access := ⟨0x21⟩, superName := some "M", origin := .classpath }

/-- The class file of a class without supertypes, whose name is a letter. -/
def loneEntry (name : String) (letter : UInt8) : LocatedClass where
  name
  location := "lib.jar"
  bytes := [0xca, 0xfe, 0xba, 0xbe, 0, 0, 0, 52, 0, 3, 1, 0, 1, letter, 7, 0, 1,
    0, 0x21, 0, 2, 0, 0, 0, 0, 0, 0, 0, 0, 0, 0]

/-- The classpath, with `A`, `C` and `D`. -/
def library : List LocatedClass :=
  [baseEntry, loneEntry "C" 67, loneEntry "D" 68]

/-- What the class file of `C` holds. -/
def loadedOwner : ClassShape :=
  { name := "C", access := ⟨0x21⟩, origin := .classpath }

/-- The one root, `B`. -/
def derivedRoot : ClassShape :=
  { name := "B", access := ⟨0x21⟩, superName := some "A", origin := .input
    references := [.ofMember .method ⟨"C", "f", "()V"⟩] }

/-- The catalog of the one root. -/
def derivedCatalog : Catalog :=
  ofRoots library [derivedRoot]

theorem decode_baseEntry : ClassShape.decode baseEntry.bytes .classpath = .ok loadedBase := rfl

theorem getElem?_derivedCatalog (n : String) :
    derivedCatalog.classpath[n]? = library.find? (·.name = n) := by
  rw [derivedCatalog, ofRoots, classpath_foldl_register, getElem?_ofClasspath]

/-- The entries hold what their paths say, also the one that is not looked at. -/
theorem wellLaid_derivedCatalog : derivedCatalog.WellLaid := by
  have hdecode : ∀ found ∈ library, ∃ shape,
      ClassShape.decode found.bytes .classpath = .ok shape ∧ shape.name = found.name := by
    simp only [library, List.forall_mem_cons]
    exact ⟨⟨_, rfl, rfl⟩, ⟨_, rfl, rfl⟩, ⟨_, rfl, rfl⟩, fun _ h => (List.not_mem_nil h).elim⟩
  intro n found hfound
  rw [getElem?_derivedCatalog] at hfound
  obtain ⟨shape, hshape, hname⟩ := hdecode found (List.mem_of_find?_eq_some hfound)
  have hn := List.find?_some hfound
  exact ⟨shape, hshape, hname.trans (of_decide_eq_true hn)⟩

/-- Before the loading only the root is known. -/
theorem get?_derivedCatalog {n : String} {shape : ClassShape} :
    derivedCatalog.get? n = some shape ↔ shape = derivedRoot ∧ n = "B" := by
  rw [derivedCatalog, get?_ofRoots (List.pairwise_singleton _ _), List.mem_singleton]
  constructor
  · rintro ⟨rfl, rfl⟩
    exact ⟨rfl, rfl⟩
  · rintro ⟨rfl, rfl⟩
    exact ⟨rfl, rfl⟩

/-- No class but the root is there at first. -/
theorem not_contains_derivedCatalog {n : String} (hn : n ≠ "B") : ¬ derivedCatalog.contains n := by
  intro hold
  obtain ⟨shape, hshape⟩ := contains_iff.1 hold
  exact hn (get?_derivedCatalog.1 hshape).2

namespace LoadsNeeded

variable {report : LoadReport} {loaded : Catalog} (h : derivedCatalog.LoadsNeeded report loaded)

include h

theorem get?_derivedRoot : loaded.get? "B" = some derivedRoot :=
  h.roots _ _ (get?_derivedCatalog.2 ⟨rfl, rfl⟩)

/-- `A` is a supertype of the root. -/
theorem get?_loadedBase : loaded.get? "A" = some loadedBase := by
  have hcontains : loaded.contains "A" := by
    refine h.least.1.supertypes "B" (contains_iff.2 ⟨_, h.get?_derivedRoot⟩) derivedRoot
      h.get?_derivedRoot ?_ "A" (by decide) (by decide)
    rintro (heq | heq) <;> cases heq
  obtain ⟨shape, hdecode, -, hget⟩ := h.found "A" hcontains
    (not_contains_derivedCatalog (by decide)) baseEntry (getElem?_derivedCatalog "A")
  rwa [← Except.ok.inj (decode_baseEntry.symm.trans hdecode)] at hget

/-- `M` is a supertype of `A`. -/
theorem get?_gap : loaded.get? "M" = some (.standIn "M" .unresolved) := by
  have hcontains : loaded.contains "M" := by
    refine h.least.1.supertypes "A" (contains_iff.2 ⟨_, h.get?_loadedBase⟩) loadedBase
      h.get?_loadedBase ?_ "M" (by decide) (by decide)
    rintro (heq | heq) <;> cases heq
  exact h.missing "M" hcontains (not_contains_derivedCatalog (by decide))
    (getElem?_derivedCatalog "M")

/-- `C` has the method that the root refers to. -/
theorem get?_loadedOwner : loaded.get? "C" = some loadedOwner := by
  have hfound := getElem?_derivedCatalog "C"
  have hcontains : loaded.contains "C" :=
    h.least.1.owners "B" derivedRoot (get?_derivedCatalog.2 ⟨rfl, rfl⟩) .method ⟨"C", "f", "()V"⟩
      (by decide) (by decide) (contains_classpath_iff.2 ⟨_, hfound⟩)
  obtain ⟨shape, hdecode, -, hget⟩ := h.found "C" hcontains
    (not_contains_derivedCatalog (by decide)) _ hfound
  have hshape : ClassShape.decode (loneEntry "C" 67).bytes .classpath = .ok loadedOwner := rfl
  rwa [← Except.ok.inj (hshape.symm.trans hdecode)] at hget

/-- The four classes have all that they need. -/
theorem closed_derived : derivedCatalog.Closed loaded (· ∈ ["A", "B", "C", "M"]) where
  roots n hroot := by
    obtain ⟨shape, hshape⟩ := contains_iff.1 hroot
    obtain ⟨-, rfl⟩ := get?_derivedCatalog.1 hshape
    exact List.mem_cons_of_mem _ List.mem_cons_self
  supertypes n hn shape hshape hknown t ht _ := by
    have hn : n ∈ ["A", "B", "C", "M"] := hn
    show t ∈ ["A", "B", "C", "M"]
    simp only [List.mem_cons, List.not_mem_nil, or_false] at hn
    -- One case for each name: `A` and `B` have one supertype each, `C` none, and `M` is a stand-in.
    rcases hn with rfl | rfl | rfl | rfl
    · obtain rfl := Option.some.inj (h.get?_loadedBase.symm.trans hshape)
      obtain rfl := List.mem_singleton.1 ht
      decide
    · obtain rfl := Option.some.inj (h.get?_derivedRoot.symm.trans hshape)
      obtain rfl := List.mem_singleton.1 ht
      decide
    · obtain rfl := Option.some.inj (h.get?_loadedOwner.symm.trans hshape)
      cases ht
    · obtain rfl := Option.some.inj (h.get?_gap.symm.trans hshape)
      exact absurd (.inl rfl) hknown
  owners n root hroot kind key hkey _ _ := by
    obtain ⟨rfl, -⟩ := get?_derivedCatalog.1 hroot
    cases List.mem_singleton.1 hkey
    show "C" ∈ ["A", "B", "C", "M"]
    decide

/-- So there are no others. -/
theorem contains_derived_iff {n : String} : loaded.contains n ↔ n ∈ ["A", "B", "C", "M"] := by
  constructor
  · intro hn
    exact h.least.2 h.closed_derived hn
  · intro hn
    simp only [List.mem_cons, List.not_mem_nil, or_false] at hn
    rcases hn with rfl | rfl | rfl | rfl
    · exact contains_iff.2 ⟨_, h.get?_loadedBase⟩
    · exact contains_iff.2 ⟨_, h.get?_derivedRoot⟩
    · exact contains_iff.2 ⟨_, h.get?_loadedOwner⟩
    · exact contains_iff.2 ⟨_, h.get?_gap⟩

end LoadsNeeded

/-- `A` is loaded as a supertype and `C` as the owner of a method, `M` is reported to be missing,
and `D` is left alone. -/
theorem loadsAll_ofRoots_derived :
    [derivedRoot].Pairwise (fun a b => a.name ≠ b.name) ∧
      LoadsAll library [derivedRoot] derivedCatalog ∧
      derivedCatalog.loadNeeded.1.problems = [] ∧
      (∀ n, derivedCatalog.loadNeeded.2.contains n ↔ n ∈ ["A", "B", "C", "M"]) ∧
      derivedCatalog.loadNeeded.2.get? "A" = some loadedBase ∧
      derivedCatalog.loadNeeded.2.get? "C" = some loadedOwner ∧
      "M" ∈ derivedCatalog.loadNeeded.1.unresolved := by
  have hroots : [derivedRoot].Pairwise (fun a b => a.name ≠ b.name) := List.pairwise_singleton _ _
  have hall : LoadsAll library [derivedRoot] derivedCatalog :=
    loadsAll_ofRoots library [derivedRoot] hroots
  have hproblems := problems_loadNeeded wellLaid_derivedCatalog
  have hneeded := hall.needed hproblems
  -- `M` is a supertype of `A`, and stands neither among the roots nor on the classpath.
  have hgap : "M" ∈ derivedCatalog.loadNeeded.1.unresolved :=
    (hneeded.unresolved "M").2 ⟨contains_iff.2 ⟨_, hneeded.get?_gap⟩,
      not_contains_derivedCatalog (by decide), getElem?_derivedCatalog "M"⟩
  exact ⟨hroots, hall, hproblems, fun _ => hneeded.contains_derived_iff, hneeded.get?_loadedBase,
    hneeded.get?_loadedOwner, hgap⟩

end Relabel.Catalog
