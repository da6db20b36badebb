import Mathlib.Data.Set.Card
import Relabel.Proofs.Catalog.Schedules

/-!
# How often a broken entry is reported

The depth of a class is the least number of needs that lead to it from a root, and a wave loads the
classes of one depth. An entry of the classpath that holds no class, or another class than its path
says, is not registered when it fails, so it is due again in each wave behind classes that ask for
it: it is reported once for each depth at which a class asks for it.

## Main results

- `Catalog.problem?_fetch`: what loading a class reports depends on its entry only.
- `Catalog.Rounds.loads_of_mem`, `Catalog.Rounds.mem_loadedIn`: a wave loads the classes of one
  depth.
- `Catalog.Rounds.step`: one more wave, by what is registered, due and reported behind it.
- `Catalog.reportsFaults_loadNeeded`: how often an entry is reported.
-/

namespace Relabel.Catalog

variable {c : Catalog} {s s' : Loading} {n m : String} {k : Nat} {shape : ClassShape}
  {tried : List String} {outcomes : List (String × Request × FetchResult)}

/-! ### Broken entries -/

/-- What is wrong with the entry of the classpath for a name, if there is an entry. -/
def fault? (c : Catalog) (n : String) : Option Problem :=
  match c.classpath[n]? with
  | none => none
  | some found =>
    let label := n ++ " (" ++ found.location ++ ")"
    match ClassShape.decode found.bytes .classpath with
    | .error e => some (.codec label (.format e))
    | .ok shape => if shape.name = n then none else some (.codec label (.declares shape.name))

/-- A name that stands for no class, because its entry is broken. -/
structure Broken (c : Catalog) (n : String) : Prop where
  new : ¬ c.contains n
  fault : (c.fault? n).isSome

/-- What is wrong with a name is a question of the classpath. -/
theorem fault?_congr {c' : Catalog} (h : c.classpath = c'.classpath) : c.fault? = c'.fault? := by
  funext n
  rw [fault?, fault?, h]

/-- Loading a class that is not registered reports what is wrong with its entry. -/
theorem problem?_fetch (h : ¬ c.contains n) (required : Bool) :
    problem? (c.fetch n required).1 = c.fault? n := by
  rw [fetch, if_neg h, fault?]
  cases c.classpath[n]? with
  | none => cases required <;> rfl
  | some found =>
    dsimp only
    cases ClassShape.decode found.bytes .classpath with
    | error e => rfl
    | ok shape =>
      by_cases hname : shape.name = n
      · simp only [if_pos hname]
        rw [register_of_new (by rwa [hname, get?_eq_none_iff])]
        rfl
      · simp only [if_neg hname]
        rfl

/-- A broken name has no class standing for it. -/
theorem Broken.not_stands (h : c.Broken n) : ¬ c.Stands n shape := by
  rintro (hroot | ⟨-, found, hfound, hdecode, hname⟩)
  · exact h.new (contains_iff.2 ⟨shape, hroot⟩)
  · have hfault := h.fault
    rw [fault?, hfound] at hfault
    simp only [hdecode, if_pos hname] at hfault
    cases hfault

/-- A name with a broken entry is never registered. -/
theorem Underway.not_contains_of_broken (h : c.Underway s) (hn : c.Broken n) :
    ¬ s.catalog.contains n := by
  intro hold
  obtain ⟨shape, hshape⟩ := contains_iff.1 hold
  rcases h.shown n shape hshape with hstands | ⟨-, hnone, -⟩
  · exact hn.not_stands hstands
  · have hfault := hn.fault
    rw [fault?, hnone] at hfault
    cases hfault

/-! ### Depths -/

/-- A name that so many needs lead to, one after the other, from a root. -/
inductive Reached (c : Catalog) : Nat → String → Prop
  | root {n : String} : c.contains n → Reached c 0 n
  | need {k : Nat} {n t : String} {shape : ClassShape} : Reached c k n → c.Stands n shape →
      Asks shape t → ¬ ClassShape.isArray t → Reached c (k + 1) t

/-- A name that so many needs lead to, and not fewer. -/
structure AtDepth (c : Catalog) (k : Nat) (n : String) : Prop where
  reached : c.Reached k n
  least : ∀ i < k, ¬ c.Reached i n

/-- A class at a depth asks for another. -/
def AskedAt (c : Catalog) (k : Nat) (n : String) : Prop :=
  ∃ m shape, c.AtDepth k m ∧ c.Stands m shape ∧ Asks shape n ∧ ¬ ClassShape.isArray n

/-- What is asked for at one depth is reached at the next. -/
theorem AskedAt.reached (h : c.AskedAt k n) : c.Reached (k + 1) n := by
  obtain ⟨m, shape, hm, hstands, hasks, harray⟩ := h
  exact .need hm.reached hstands hasks harray

/-- What is reached by one need more, and not by fewer, is asked for at the depth before. -/
theorem AtDepth.askedAt (h : c.AtDepth (k + 1) n) : c.AskedAt k n := by
  cases h.reached with
  | need hm hstands hasks harray =>
    refine ⟨_, _, ⟨hm, fun i hi hi' => ?_⟩, hstands, hasks, harray⟩
    exact h.least (i + 1) (Nat.succ_lt_succ hi) (.need hi' hstands hasks harray)

/-- At depth zero stand the roots. -/
theorem AtDepth.contains (h : c.AtDepth 0 n) : c.contains n := by
  cases h.reached with
  | root hn => exact hn

/-- A class that stands for a known name is the one that is known. -/
theorem Stands.of_contains (h : c.Stands n shape) (hn : c.contains n) : c.get? n = some shape :=
  h.resolve_right fun hfound => hfound.1 hn

/-! ### One wave -/

/-- How far loading has come behind a number of waves: the classes up to that depth are registered,
what those at that depth ask for is due, and the names tried so far are reported where their entries
are broken. -/
structure Rounds (c : Catalog) (k : Nat) (tried : List String) (s : Loading) : Prop where
  underway : c.Underway s
  registered : ∀ n shape, c.Stands n shape → (s.catalog.contains n ↔ ∃ i ≤ k, c.Reached i n)
  due : ∀ n, n ∈ s.due ↔ c.AskedAt k n ∧ ¬ s.catalog.contains n
  problems : s.report.problems = tried.filterMap c.fault?
  new : ∀ n ∈ tried, ¬ c.contains n
  count : ∀ n, c.Broken n → (tried.count n : ℕ∞) = {i | i < k ∧ c.AskedAt i n}.encard

/-- Before the first wave nothing has been tried. -/
theorem rounds_loading (c : Catalog) : c.Rounds 0 [] c.loading where
  underway := underway_loading c
  registered n shape _ := by
    constructor
    · exact fun hn => ⟨0, Nat.le_refl 0, .root hn⟩
    · rintro ⟨i, hi, hreached⟩
      obtain rfl := Nat.le_zero.1 hi
      cases hreached with
      | root hn => exact hn
  due n := by
    refine (mem_foldl_requestFor c.classes).trans ⟨fun h => ?_, ?_⟩
    -- What is due is asked for by a root, which is at depth zero.
    · obtain ⟨shape, hshape, hasks, hopen⟩ := h.resolve_left not_mem_empty
      obtain ⟨m, hm⟩ := mem_classes.1 hshape
      exact ⟨⟨m, shape, ⟨.root (contains_iff.2 ⟨shape, hm⟩), by simp⟩, .inl hm, hasks,
        hopen.not_array⟩, hopen.new⟩
    · rintro ⟨⟨m, shape, hm, hstands, hasks, harray⟩, hnew⟩
      exact .inr ⟨shape, mem_classes.2 ⟨m, hstands.of_contains hm.contains⟩, hasks, harray, hnew⟩
  problems := rfl
  new _ hn := (List.not_mem_nil hn).elim
  count n _ := by simp

namespace Rounds

/-- A wave loads the classes that stand at the next depth. -/
theorem loads_of_mem (h : c.Rounds k tried s) (hstep : s.Step outcomes s')
    (hshape : shape ∈ loadedIn outcomes) :
    c.AtDepth (k + 1) shape.name ∧ c.Stands shape.name shape := by
  have hloads := hstep.loads_of_mem hshape
  have hstands := h.underway.stands hloads
  obtain ⟨hasked, hnew⟩ := (h.due shape.name).1 hloads.due
  refine ⟨⟨hasked.reached, fun i hi hreached => hnew ?_⟩, hstands⟩
  exact (h.registered _ _ hstands).2 ⟨i, Nat.lt_succ_iff.1 hi, hreached⟩

/-- A name at the next depth with a class of its own is loaded by the wave. -/
theorem mem_loadedIn (h : c.Rounds k tried s) (hstep : s.Step outcomes s')
    (hn : c.AtDepth (k + 1) n) (hstands : c.Stands n shape) :
    shape ∈ loadedIn outcomes ∧ shape.name = n := by
  have hnew : ¬ s.catalog.contains n := by
    rw [h.registered n shape hstands]
    rintro ⟨i, hi, hreached⟩
    exact hn.least i (Nat.lt_succ_iff.2 hi) hreached
  obtain ⟨request, result, hmem, -, hfetched, -⟩ :=
    hstep.exists_outcome ((h.due n).2 ⟨hn.askedAt, hnew⟩)
  rw [h.underway.classpath] at hfetched
  -- It is no root, so it is the class that the classpath holds.
  rcases hstands with hroot | ⟨-, found, hfound, hdecode, hname⟩
  · exact absurd (.root (contains_iff.2 ⟨shape, hroot⟩)) (hn.least 0 (Nat.succ_pos k))
  cases hfetched with
  | loaded hfound' hdecode' =>
    obtain rfl := Option.some.inj (hfound.symm.trans hfound')
    obtain rfl := Except.ok.inj (hdecode.symm.trans hdecode')
    exact ⟨List.mem_filterMap.2 ⟨_, hmem, rfl⟩, hname⟩
  | skipped hnone | missing hnone => cases hfound.symm.trans hnone
  | failed hfound' hbad =>
    obtain rfl := Option.some.inj (hfound.symm.trans hfound')
    exact absurd hname (hbad shape hdecode)

/-- Behind the wave the classes up to the next depth are registered. -/
theorem contains_step_iff (h : c.Rounds k tried s) (hstep : s.Step outcomes s')
    (hstands : c.Stands n shape) :
    s'.catalog.contains n ↔ ∃ i ≤ k + 1, c.Reached i n := by
  constructor
  · intro hn
    obtain ⟨shape', hshape'⟩ := contains_iff.1 hn
    rcases hstep.registers hshape' with hold | ⟨hdue, -⟩
    · obtain ⟨i, hi, hreached⟩ := (h.registered n shape hstands).1 (contains_iff.2 ⟨shape', hold⟩)
      exact ⟨i, Nat.le_succ_of_le hi, hreached⟩
    · exact ⟨k + 1, Nat.le_refl _, ((h.due n).1 hdue).1.reached⟩
  · rintro ⟨i, hi, hreached⟩
    by_cases hold : ∃ j ≤ k, c.Reached j n
    · exact hstep.contains h.underway.pending ((h.registered n shape hstands).2 hold)
    -- Nothing shallower reaches the name, so it is at the depth of this wave.
    · push Not at hold
      obtain rfl : i = k + 1 := by
        refine Nat.le_antisymm hi (Nat.lt_of_not_le fun hle => ?_)
        exact hold i hle hreached
      obtain ⟨hmem, rfl⟩ := h.mem_loadedIn hstep
        ⟨hreached, fun j hj => hold j (Nat.lt_succ_iff.1 hj)⟩ hstands
      exact contains_iff.2 ⟨shape, (hstep.loads_of_mem hmem).registered⟩

/-- Behind the wave what the classes at the next depth ask for is due. -/
theorem mem_due_step_iff (h : c.Rounds k tried s) (hstep : s.Step outcomes s') :
    n ∈ s'.due ↔ c.AskedAt (k + 1) n ∧ ¬ s'.catalog.contains n := by
  rw [hstep.due_eq, mem_foldl_requestFor]
  constructor
  · intro hn
    obtain ⟨shape, hshape, hasks, hopen⟩ := hn.resolve_left not_mem_empty
    obtain ⟨hdepth, hstands⟩ := h.loads_of_mem hstep hshape
    exact ⟨⟨shape.name, shape, hdepth, hstands, hasks, hopen.not_array⟩, hopen.new⟩
  · rintro ⟨⟨m, shape, hdepth, hstands, hasks, harray⟩, hnew⟩
    obtain ⟨hmem, -⟩ := h.mem_loadedIn hstep hdepth hstands
    exact .inr ⟨shape, hmem, hasks, harray, hnew⟩

/-- A name with a broken entry is tried once more where a class at the depth asks for it. -/
theorem count_step (h : c.Rounds k tried s) (hn : c.Broken n) :
    ((tried ++ s.due.keys).count n : ℕ∞) = {i | i < k + 1 ∧ c.AskedAt i n}.encard := by
  have hdue : n ∈ s.due.keys ↔ c.AskedAt k n := by
    rw [Std.TreeMap.mem_keys, h.due, and_iff_left (h.underway.not_contains_of_broken hn)]
  rw [List.count_append, Nat.cast_add, h.count n hn]
  -- The wave adds one try exactly where the name is asked for at its depth.
  by_cases hasked : c.AskedAt k n
  · have hset : {i | i < k + 1 ∧ c.AskedAt i n} = insert k {i | i < k ∧ c.AskedAt i n} := by
      ext i
      simp only [Set.mem_ofPred_eq, Set.mem_insert_iff, Nat.lt_succ_iff, Nat.le_iff_lt_or_eq]
      constructor
      · rintro ⟨hlt | rfl, hi⟩
        · exact .inr ⟨hlt, hi⟩
        · exact .inl rfl
      · rintro (rfl | ⟨hlt, hi⟩)
        · exact ⟨.inr rfl, hasked⟩
        · exact ⟨.inl hlt, hi⟩
    rw [hset, Set.encard_insert_of_notMem fun hk => Nat.lt_irrefl k hk.1,
      List.count_eq_one_of_mem Std.TreeMap.nodup_keys (hdue.2 hasked), Nat.cast_one]
  · have hset : {i | i < k + 1 ∧ c.AskedAt i n} = {i | i < k ∧ c.AskedAt i n} := by
      ext i
      simp only [Set.mem_ofPred_eq, Nat.lt_succ_iff, Nat.le_iff_lt_or_eq]
      refine ⟨?_, fun ⟨hlt, hi⟩ => ⟨.inl hlt, hi⟩⟩
      rintro ⟨hlt | rfl, hi⟩
      · exact ⟨hlt, hi⟩
      · exact absurd hi hasked
    rw [hset, List.count_eq_zero.2 (mt hdue.1 hasked), Nat.cast_zero, add_zero]

/-- One more wave. -/
theorem step (h : c.Rounds k tried s) (hnext : s.next = some s') :
    c.Rounds (k + 1) (tried ++ s.due.keys) s' := by
  obtain ⟨hstep, -⟩ := Loading.step_of_next h.underway.pending hnext
  -- Nothing that is due is known yet, so each outcome shows what the classpath holds.
  have hwave : (s.catalog.fetchWave s.due.toList).1.filterMap (fun o => problem? o.2.2) =
      s.due.keys.filterMap c.fault? := by
    rw [(apart_fetchWave s.catalog s.nodup_names_toList).outcomes, List.filterMap_map,
      ← Std.TreeMap.map_fst_toList_eq_keys, List.filterMap_map,
      ← fault?_congr h.underway.classpath]
    refine List.filterMap_congr fun e he => problem?_fetch ?_ e.2.required
    exact (h.underway.pending e.1 (Loading.mem_names_toList.1 (List.mem_map_of_mem he))).new
  refine ⟨h.underway.step hstep, fun n shape hstands => h.contains_step_iff hstep hstands,
    fun n => h.mem_due_step_iff hstep, ?_, fun n hn => ?_, fun n hn => h.count_step hn⟩
  · rw [hstep.notes.problems, hwave, h.problems, List.filterMap_append]
  · rcases List.mem_append.1 hn with hn | hn
    · exact h.new n hn
    · exact h.underway.new (Std.TreeMap.mem_keys.1 hn)

/-! ### The end -/

/-- When nothing is due any more, all that is reached and stands for a class is registered. -/
theorem contains_of_reached (h : c.Rounds k tried s) (hdue : ∀ n, n ∉ s.due) {i : Nat}
    (hn : c.Reached i n) (hstands : c.Stands n shape) : s.catalog.contains n := by
  induction hn generalizing shape with
  | root hroot => exact (h.registered _ _ hstands).2 ⟨0, Nat.zero_le k, .root hroot⟩
  | @need _ m t asking _ hm hasks harray ih =>
    obtain ⟨j, hj, hreached⟩ := (h.registered m asking hm).1 (ih hm)
    by_contra hnew
    -- The class that asks is at the last depth, so what it asks for would be due.
    have hlast : ∀ i < k, ¬ c.Reached i m := fun i hi hi' =>
      hnew ((h.registered t shape hstands).2 ⟨i + 1, hi, .need hi' hm hasks harray⟩)
    obtain rfl : j = k := Nat.le_antisymm hj (Nat.le_of_not_lt fun hlt => hlast j hlt hreached)
    exact hdue t ((h.due t).2 ⟨⟨m, asking, ⟨hreached, hlast⟩, hm, hasks, harray⟩, hnew⟩)

/-- When nothing is due any more, no class further down asks for a name with a broken entry. -/
theorem lt_of_askedAt (h : c.Rounds k tried s) (hdue : ∀ n, n ∉ s.due) (hn : c.Broken n) {i : Nat}
    (hi : c.AskedAt i n) : i < k := by
  obtain ⟨m, shape, hdepth, hstands, hasks, harray⟩ := hi
  obtain ⟨j, hj, hreached⟩ := (h.registered m shape hstands).1
    (h.contains_of_reached hdue hdepth.reached hstands)
  refine Nat.lt_of_le_of_ne ?_ ?_
  · exact Nat.le_trans (Nat.le_of_not_lt fun hlt => hdepth.least j hlt hreached) hj
  · rintro rfl
    exact hdue n ((h.due n).2
      ⟨⟨m, shape, hdepth, hstands, hasks, harray⟩, h.underway.not_contains_of_broken hn⟩)

end Rounds

/-- However many waves there are. -/
theorem exists_rounds (hends : EndsAt Loading.next c.loading s) :
    ∃ k tried, c.Rounds k tried s := by
  refine hends.invariant (P := fun s => ∃ k tried, c.Rounds k tried s) ?_
    ⟨0, [], rounds_loading c⟩
  rintro s s' hnext ⟨k, tried, h⟩
  exact ⟨k + 1, tried ++ s.due.keys, h.step hnext⟩

/-! ### The report -/

/-- What is reported of the entries of the classpath: for each name in a list what is wrong with its
entry. The names in the list are those with a broken entry that a class asks for, each as often as
there are depths at which a class does. -/
structure ReportsFaults (c : Catalog) (problems : List Problem) (names : List String) : Prop where
  problems : List.Forall₂ (fun n problem => c.fault? n = some problem) names problems
  mem_iff : ∀ n, n ∈ names ↔ c.Broken n ∧ ∃ k, c.AskedAt k n
  count : ∀ n, c.Broken n → (names.count n : ℕ∞) = {k | c.AskedAt k n}.encard
  /-- Reported once is what is asked for at one depth only. -/
  once_iff : ∀ n, c.Broken n → (names.count n = 1 ↔ ∃! k, c.AskedAt k n)

/-- When the rounds end, the faults are told once for each depth that asks. -/
theorem Rounds.reportsFaults (h : c.Rounds k tried s) (hdue : ∀ n, n ∉ s.due) :
    c.ReportsFaults s.report.problems (tried.filter fun n => (c.fault? n).isSome) := by
  have hcount (n : String) (hn : c.Broken n) :
      ((tried.filter fun n => (c.fault? n).isSome).count n : ℕ∞) = {k | c.AskedAt k n}.encard := by
    -- No depth beyond the last round asks for anything.
    have hset : {i | i < k ∧ c.AskedAt i n} = {i | c.AskedAt i n} :=
      Set.ext fun i => ⟨And.right, fun hi => ⟨h.lt_of_askedAt hdue hn hi, hi⟩⟩
    rw [← hset, ← h.count n hn]
    exact congrArg _ (List.count_filter (p := fun n => (c.fault? n).isSome) hn.fault)
  refine ⟨?_, fun n => ?_, hcount, fun n hn => ?_⟩
  · rw [h.problems]
    exact forall₂_filterMap c.fault? tried
  · constructor
    · intro hmem
      have hn : c.Broken n := ⟨h.new n (List.mem_of_mem_filter hmem), (List.mem_filter.1 hmem).2⟩
      have hne : {k | c.AskedAt k n}.encard ≠ 0 := by
        rw [← hcount n hn, Nat.cast_ne_zero]
        exact (List.count_pos_iff.2 hmem).ne'
      exact ⟨hn, Set.encard_ne_zero.1 hne⟩
    · rintro ⟨hn, hasked⟩
      have hne : {k | c.AskedAt k n}.encard ≠ 0 := Set.encard_ne_zero.2 hasked
      rw [← hcount n hn, Nat.cast_ne_zero] at hne
      exact List.count_pos_iff.1 (Nat.pos_of_ne_zero hne)
  · have hone : (tried.filter fun n => (c.fault? n).isSome).count n = 1 ↔
        {k | c.AskedAt k n}.encard = 1 := by
      rw [← hcount n hn, Nat.cast_eq_one]
    rw [hone, Set.encard_eq_one]
    constructor
    · rintro ⟨k, hk⟩
      exact ⟨k, hk.ge rfl, fun i hi => hk.le hi⟩
    · rintro ⟨k, hk, honly⟩
      exact ⟨k, Set.Subset.antisymm (fun i hi => honly i hi) (by rintro i rfl; exact hk)⟩

/-- Of any catalog of roots, loading reports a broken entry once for each depth at which a class
asks for it, so at least once where a class does, and once where all that do have one depth. -/
theorem reportsFaults_loadNeeded (c : Catalog) :
    ∃ names, c.ReportsFaults c.loadNeeded.1.problems names := by
  obtain ⟨s, hends, hloaded⟩ := endsAt_loadNeeded c
  obtain ⟨k, tried, h⟩ := exists_rounds hends
  rw [hloaded]
  exact ⟨_, h.reportsFaults (not_mem_due_of_next hends.next_eq_none)⟩

end Relabel.Catalog
