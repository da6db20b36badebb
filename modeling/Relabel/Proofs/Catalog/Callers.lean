import Relabel.Proofs.Catalog.FromRoots

/-!
# Registering by several callers

A call that registers a class takes two steps: it looks whether the name is taken, and where it is
not it registers the class, unless the name is taken by then. Between the two steps of one call
others may take theirs, in any order.

The look decides nothing but that a call is over early. What is registered under a name is changed
by one step only, which finds the name free, so one call of those with a name that was free returns
that it registered its class, and each of them returns the class that is there in the end.

## Main results

- `Catalog.Call.step_step`: the two steps of one call without others in between.
- `Catalog.Call.stepped_step`: what one step comes to.
- `Catalog.Callers.Underway.turn`, `Catalog.Callers.underway_run`: what a step and a run of steps
  of all calls keep.
- `Catalog.registeredOnce_of_run`: what the calls return, and what is registered in the end.
-/

namespace Relabel.Catalog

variable {c₀ : Catalog}

/-! ### The steps of a call -/

/-- How far a call has come that registers a class. -/
inductive Call where
  /-- Next it looks whether the name is taken. -/
  | looking
  /-- Next it registers the class, unless the name is taken by now. -/
  | committing
  /-- It has returned the class under the name, and whether that is the one it was given. -/
  | done (existing : ClassShape) (isNew : Bool)

namespace Call

/-- One step of a call: one look at the catalog, or one registration. -/
def step (c : Catalog) (shape : ClassShape) : Call → Call × Catalog
  | .looking => match c.get? shape.name with
    | some existing => (.done existing false, c)
    | none => (.committing, c)
  | .committing =>
    let registered := c.commit shape
    (.done registered.shape registered.isNew, registered.catalog)
  | .done existing isNew => (.done existing isNew, c)

/-- Whether a call has returned that it registered its class. -/
def isNew : Call → Bool
  | .done _ isNew => isNew
  | .looking | .committing => false

/-- The steps of a call without any other in between register the class. -/
theorem step_step (c : Catalog) (shape : ClassShape) :
    (looking.step c shape).1.step (looking.step c shape).2 shape =
      (.done (c.register shape).shape (c.register shape).isNew, (c.register shape).catalog) := by
  rw [step, register]
  cases c.get? shape.name <;> rfl

/-- What one step of a call comes to. -/
inductive Stepped (c : Catalog) (shape : ClassShape) : Call → Call → Catalog → Prop
  | found {call : Call} {existing : ClassShape} : c.get? shape.name = some existing →
      call.isNew = false → Stepped c shape call (.done existing false) c
  | free : Stepped c shape .looking .committing c
  | registered : c.get? shape.name = none → Stepped c shape .committing (.done shape true)
      (c.put shape)
  | passed {existing : ClassShape} {isNew : Bool} :
      Stepped c shape (.done existing isNew) (.done existing isNew) c

/-- A step of a call is one of the cases of `Stepped`. -/
theorem stepped_step (c : Catalog) (shape : ClassShape) (call : Call) :
    Stepped c shape call (call.step c shape).1 (call.step c shape).2 := by
  cases call with
  | looking =>
    rw [step]
    split
    · next existing hold => exact .found hold rfl
    · exact .free
  | committing =>
    -- Another call may have registered the name since this one looked, so the catalog is asked
    -- again.
    rw [step, commit]
    cases hold : c.get? shape.name with
    | some existing => exact .found hold rfl
    | none => exact .registered hold
  | done existing isNew => exact .passed

/-- The number of steps a call may still take. -/
def left : Call → Nat
  | .looking => 2
  | .committing => 1
  | .done _ _ => 0

/-- A step brings a call nearer to its end, or it is there. -/
theorem left_step (c : Catalog) (shape : ClassShape) (call : Call) :
    (call.step c shape).1.left ≤ call.left - 1 := by
  cases call with
  | looking =>
    rw [step]
    split
    · exact Nat.zero_le _
    · exact Nat.le_refl _
  | committing | done => exact Nat.le_refl _

end Call

/-! ### The steps of all calls -/

/-- Calls, each with the class it is to register, and the catalog they share. -/
structure Callers where
  catalog : Catalog
  calls : List (ClassShape × Call)

/-- No call has taken a step. -/
def callers (c : Catalog) (shapes : List ClassShape) : Callers where
  catalog := c
  calls := shapes.map (·, .looking)

namespace Callers

variable {s : Callers} {shapes : List ClassShape}

/-- The call at a place takes a step. -/
def turn (s : Callers) (i : Nat) : Callers :=
  match s.calls[i]? with
  | none => s
  | some (shape, call) =>
    let (call, catalog) := call.step s.catalog shape
    { catalog, calls := s.calls.set i (shape, call) }

/-- Calls take steps, in the order of their turns. -/
def run (s : Callers) (turns : List Nat) : Callers :=
  turns.foldl turn s

/-- All calls have returned. -/
def Finished (s : Callers) : Prop :=
  ∀ e ∈ s.calls, ∃ existing isNew, e.2 = .done existing isNew

/-- Whether a call for a name has returned that it registered its class. -/
def won (n : String) (e : ClassShape × Call) : Bool :=
  e.1.name = n && e.2.isNew

/-- What holds however far the calls have come: under a name there is what was there at first, or
the class of the one call that has registered under it. -/
structure Underway (c₀ : Catalog) (shapes : List ClassShape) (s : Callers) : Prop where
  given : s.calls.map Prod.fst = shapes
  classpath : s.catalog.classpath = c₀.classpath
  kept : ∀ n shape, c₀.get? n = some shape → s.catalog.get? n = some shape
  added : ∀ n shape, s.catalog.get? n = some shape →
    c₀.get? n = some shape ∨ shape ∈ shapes ∧ shape.name = n
  returned : ∀ shape existing (isNew : Bool), (shape, .done existing isNew) ∈ s.calls →
    s.catalog.get? shape.name = some existing ∧ (isNew = true → existing = shape)
  won : ∀ n, s.calls.countP (won n) = if s.catalog.contains n ∧ ¬ c₀.contains n then 1 else 0

/-- Before the first step no call has registered anything. -/
theorem underway_callers (c₀ : Catalog) (shapes : List ClassShape) :
    (c₀.callers shapes).Underway c₀ shapes where
  given := by simp [Catalog.callers, Function.comp_def]
  classpath := rfl
  kept _ _ h := h
  added _ _ h := .inl h
  returned shape existing isNew h := by
    obtain ⟨_, _, heq⟩ := List.mem_map.1 h
    cases heq
  won n := by
    have hnone : (c₀.callers shapes).calls.countP (Callers.won n) = 0 := by
      refine List.countP_eq_zero.2 fun e he => ?_
      obtain ⟨_, _, rfl⟩ := List.mem_map.1 he
      simp [Callers.won, Call.isNew]
    rw [hnone, if_neg]
    exact fun h => h.2 h.1

/-- A turn passes by, or takes the call whose turn it is one step further. -/
theorem turn_cases (s : Callers) (i : Nat) : s.turn i = s ∨
    ∃ shape call call' catalog, s.calls[i]? = some (shape, call) ∧
      Call.Stepped s.catalog shape call call' catalog ∧
      s.turn i = { catalog, calls := s.calls.set i (shape, call') } := by
  unfold turn
  split
  · exact .inl rfl
  · next shape call hcall =>
    exact .inr ⟨shape, call, _, _, hcall, Call.stepped_step s.catalog shape call, rfl⟩

/-- An entry in the place of another does not show where the two are not told apart. -/
theorem map_set_of_eq {α β : Type} {f : α → β} {l : List α} {i : Nat} {a b : α}
    (h : l[i]? = some a) (hf : f b = f a) : (l.set i b).map f = l.map f := by
  obtain ⟨hlt, rfl⟩ := List.getElem?_eq_some_iff.1 h
  have hlt : i < (l.map f).length := by rwa [List.length_map]
  have hget : (l.map f)[i] = f l[i] := List.getElem_map f
  rw [List.map_set, hf, ← hget, List.set_getElem_self]

/-- A call that goes on keeps its shape. -/
theorem map_fst_set {i : Nat} {shape : ClassShape} {call : Call}
    (h : s.calls[i]? = some (shape, call)) (call' : Call) :
    (s.calls.set i (shape, call')).map Prod.fst = s.calls.map Prod.fst :=
  map_set_of_eq h rfl

/-- A call that goes on without registering leaves the number of those that have. -/
theorem countP_won_set {i : Nat} {shape : ClassShape} {call call' : Call}
    (h : s.calls[i]? = some (shape, call)) (hcall : call'.isNew = call.isNew) (n : String) :
    (s.calls.set i (shape, call')).countP (won n) = s.calls.countP (won n) := by
  have hwon : won n = (fun e => e.1.name = n && e.2) ∘ fun e : ClassShape × Call =>
      (e.1, e.2.isNew) := rfl
  rw [hwon, ← List.countP_map, ← List.countP_map,
    map_set_of_eq (f := fun e : ClassShape × Call => (e.1, e.2.isNew)) h (by rw [hcall])]

/-- A step that registers nothing. -/
theorem Underway.set (h : s.Underway c₀ shapes) {i : Nat} {shape : ClassShape} {call call' : Call}
    (hcall : s.calls[i]? = some (shape, call)) (hsame : call'.isNew = call.isNew)
    (hreturned : ∀ existing (isNew : Bool), call' = .done existing isNew →
      s.catalog.get? shape.name = some existing ∧ (isNew = true → existing = shape)) :
    Underway c₀ shapes { catalog := s.catalog, calls := s.calls.set i (shape, call') } where
  given := (map_fst_set hcall call').trans h.given
  classpath := h.classpath
  kept := h.kept
  added := h.added
  returned shape' existing isNew hmem := by
    rcases List.mem_or_eq_of_mem_set hmem with hmem | heq
    · exact h.returned shape' existing isNew hmem
    · obtain ⟨rfl, rfl⟩ := Prod.mk.inj heq
      exact hreturned existing isNew rfl
  won n := (countP_won_set hcall hsame n).trans (h.won n)

/-- A step that registers a class under a name that is free. -/
theorem Underway.register (h : s.Underway c₀ shapes) {i : Nat} {shape : ClassShape}
    (hcall : s.calls[i]? = some (shape, .committing)) (hfree : s.catalog.get? shape.name = none) :
    Underway c₀ shapes
      { catalog := s.catalog.put shape, calls := s.calls.set i (shape, .done shape true) } := by
  obtain ⟨hlt, hi⟩ := List.getElem?_eq_some_iff.1 hcall
  -- The shape is one of those that were given.
  have hshape : shape ∈ shapes := by
    rw [← h.given]
    exact List.mem_map_of_mem (f := Prod.fst) (List.mem_of_getElem? hcall)
  have hget (n : String) : (s.catalog.put shape).get? n =
      if shape.name = n then some shape else s.catalog.get? n := get?_put s.catalog shape n
  have hother {n : String} {old : ClassShape} (hold : s.catalog.get? n = some old) :
      (s.catalog.put shape).get? n = some old := by
    rw [hget, if_neg, hold]
    rintro rfl
    cases hfree.symm.trans hold
  refine ⟨(map_fst_set hcall _).trans h.given, h.classpath,
    fun n old hold => hother (h.kept n old hold), fun n new hnew => ?_,
    fun shape' existing isNew hmem => ?_, fun n => ?_⟩
  · rw [hget] at hnew
    split at hnew
    · next hname =>
      obtain rfl := Option.some.inj hnew
      exact .inr ⟨hshape, hname⟩
    · exact h.added n new hnew
  · rcases List.mem_or_eq_of_mem_set hmem with hmem | heq
    · obtain ⟨hold, hnew⟩ := h.returned shape' existing isNew hmem
      exact ⟨hother hold, hnew⟩
    · cases heq
      exact ⟨by rw [hget, if_pos rfl], fun _ => rfl⟩
  · -- There was no class under the name, so no call for it had registered one.
    have hbefore := h.won n
    have hnot : Callers.won n s.calls[i] = false := by rw [hi]; exact Bool.and_false _
    rw [List.countP_set hlt, hnot, hbefore]
    by_cases hname : shape.name = n
    · subst hname
      have hnone : ¬ s.catalog.contains shape.name := get?_eq_none_iff.1 hfree
      have hnew : ¬ c₀.contains shape.name := fun hold => by
        obtain ⟨old, hold⟩ := contains_iff.1 hold
        cases hfree.symm.trans (h.kept _ _ hold)
      have hnow : (s.catalog.put shape).contains shape.name :=
        contains_iff.2 ⟨shape, by rw [hget, if_pos rfl]⟩
      simp [hnone, hnew, hnow, Callers.won, Call.isNew]
    · have hsame : (s.catalog.put shape).contains n = s.catalog.contains n := by
        rw [Bool.eq_iff_iff, contains_iff, contains_iff, hget, if_neg hname]
      simp [hsame, Callers.won, hname]

/-- A turn keeps that. -/
theorem Underway.turn (h : s.Underway c₀ shapes) (i : Nat) : (s.turn i).Underway c₀ shapes := by
  rcases s.turn_cases i with hturn | ⟨shape, call, call', catalog, hcall, hstep, hturn⟩
  · rw [hturn]
    exact h
  rw [hturn]
  -- Only a call that finds the name free under the lock changes the catalog.
  cases hstep with
  | found hold hnot =>
    refine h.set hcall hnot.symm fun existing isNew heq => ?_
    cases heq
    exact ⟨hold, fun hnew => by cases hnew⟩
  | free => exact h.set hcall rfl fun existing isNew heq => by cases heq
  | registered hfree => exact h.register hcall hfree
  | passed =>
    refine h.set hcall rfl fun existing isNew heq => ?_
    cases heq
    exact h.returned shape _ _ (List.mem_of_getElem? hcall)

/-- A run keeps it, whoever has the turns. -/
theorem underway_run (c₀ : Catalog) (shapes : List ClassShape) (turns : List Nat) :
    ((c₀.callers shapes).run turns).Underway c₀ shapes :=
  List.foldlRecOn (motive := Underway c₀ shapes) turns turn (underway_callers c₀ shapes)
    fun _ h i _ => h.turn i

/-! ### The end -/

/-- The number of steps the call at a place may still take. -/
def leftAt (s : Callers) (i : Nat) : Nat :=
  s.calls[i]?.elim 0 (·.2.left)

/-- A call may take a step less after its turn. -/
theorem leftAt_turn (s : Callers) (i j : Nat) :
    (s.turn j).leftAt i ≤ s.leftAt i - [j].count i := by
  rw [List.count_singleton]
  unfold turn leftAt
  split
  · next hnone =>
    split
    · next heq =>
      obtain rfl := eq_of_beq heq
      simp [hnone]
    · exact Nat.le_refl _
  · next shape call hcall =>
    obtain ⟨hlt, -⟩ := List.getElem?_eq_some_iff.1 hcall
    rw [List.getElem?_set]
    -- The turn of a call only advances that call.
    by_cases heq : j = i
    · subst heq
      rw [if_pos rfl, if_pos hlt, hcall, if_pos BEq.rfl]
      exact Call.left_step s.catalog shape call
    · simp [heq]

/-- A run takes as many steps of a call as it has turns. -/
theorem leftAt_run (s : Callers) (i : Nat) (turns : List Nat) :
    (s.run turns).leftAt i ≤ s.leftAt i - turns.count i := by
  induction turns generalizing s with
  | nil => exact Nat.le_refl _
  | cons j rest ih =>
    have hrest : (s.run (j :: rest)).leftAt i ≤ (s.turn j).leftAt i - rest.count i := ih (s.turn j)
    have hturn := leftAt_turn s i j
    rw [List.count_singleton] at hturn
    rw [List.count_cons]
    omega

/-- Two turns for each call are enough. -/
theorem finished_run (c₀ : Catalog) {turns : List Nat}
    (h : ∀ i < shapes.length, 2 ≤ turns.count i) : ((c₀.callers shapes).run turns).Finished := by
  intro e he
  obtain ⟨i, hi⟩ := List.mem_iff_getElem?.1 he
  have hleft := leftAt_run (c₀.callers shapes) i turns
  have hlt : i < shapes.length := by
    obtain ⟨hlt, -⟩ := List.getElem?_eq_some_iff.1 hi
    rw [← (underway_run c₀ shapes turns).given, List.length_map]
    exact hlt
  -- A call begins with two steps left.
  have hstart : (c₀.callers shapes).leftAt i = 2 := by
    simp [leftAt, Catalog.callers, hlt, Call.left]
  have hcount := h i hlt
  have hend : e.2.left = 0 := by
    rw [leftAt, hi, hstart] at hleft
    exact Nat.le_zero.1 (Nat.le_trans hleft (by omega))
  cases hcall : e.2 with
  | done existing isNew => exact ⟨existing, isNew, rfl⟩
  | looking | committing => rw [hcall] at hend; cases hend

end Callers

/-- What calls that register classes come to. -/
structure RegisteredOnce (c : Catalog) (shapes : List ClassShape) (s : Callers) : Prop where
  given : s.calls.map Prod.fst = shapes
  /-- Where a name was free, one of the calls for it returns that it has registered its class. -/
  once : ∀ shape ∈ shapes, c.get? shape.name = none →
    s.calls.countP (Callers.won shape.name) = 1
  /-- Each call returns the class that is under its name in the end, and tells whether that is the
  one it has registered. -/
  returned : ∀ e ∈ s.calls, ∃ existing isNew, e.2 = .done existing isNew ∧
    s.catalog.get? e.1.name = some existing ∧
      (isNew = true → c.get? e.1.name = none ∧ existing = e.1)
  kept : ∀ n shape, c.get? n = some shape → s.catalog.get? n = some shape
  other : ∀ n, (∀ shape ∈ shapes, shape.name ≠ n) → s.catalog.get? n = c.get? n
  classpath : s.catalog.classpath = c.classpath

/-- Once all calls are finished, each name is registered once. -/
theorem Callers.Underway.registeredOnce {s : Callers} {shapes : List ClassShape}
    (h : s.Underway c₀ shapes) (hfinished : s.Finished) : c₀.RegisteredOnce shapes s where
  given := h.given
  once shape hshape hfree := by
    rw [← h.given] at hshape
    obtain ⟨⟨_, call⟩, he, rfl⟩ := List.mem_map.1 hshape
    obtain ⟨existing, isNew, hdone⟩ := hfinished _ he
    obtain rfl : call = .done existing isNew := hdone
    obtain ⟨hend, -⟩ := h.returned _ _ _ he
    rw [h.won, if_pos ⟨contains_iff.2 ⟨existing, hend⟩, get?_eq_none_iff.1 hfree⟩]
  returned e he := by
    obtain ⟨existing, isNew, hdone⟩ := hfinished e he
    obtain ⟨shape, call⟩ := e
    obtain rfl : call = .done existing isNew := hdone
    obtain ⟨hend, hown⟩ := h.returned shape existing isNew he
    refine ⟨existing, isNew, rfl, hend, fun hnew => ⟨?_, hown hnew⟩⟩
    -- A call for a name that was taken from the start has not registered its class.
    subst hnew
    have hwon : 0 < s.calls.countP (Callers.won shape.name) :=
      List.countP_pos_iff.2 ⟨_, he, by simp [Callers.won, Call.isNew]⟩
    rw [h.won] at hwon
    split at hwon
    · next hnew => exact get?_eq_none_iff.2 hnew.2
    · cases hwon
  kept := h.kept
  other n hn := by
    cases hnow : s.catalog.get? n with
    | none =>
      cases hold : c₀.get? n with
      | none => rfl
      | some old => cases (h.kept n old hold).symm.trans hnow
    | some shape =>
      rcases h.added n shape hnow with hold | ⟨hshape, hname⟩
      · exact hold.symm
      · exact absurd hname (hn shape hshape)
  classpath := h.classpath

/-- Registering a class is atomic. Alone a call registers its class with two steps. Of any number
of calls that take their steps in any order, each comes to an end with two turns; and once all have
returned, one call for each name that was free has registered its class, each call has returned
what is registered under its name, and nothing else has changed. -/
theorem registeredOnce_of_run (c : Catalog) (shapes : List ClassShape) (turns : List Nat) :
    (∀ shape, ((c.callers [shape]).run [0, 0]).calls =
        [(shape, .done (c.register shape).shape (c.register shape).isNew)] ∧
      ((c.callers [shape]).run [0, 0]).catalog = (c.register shape).catalog) ∧
    ((∀ i < shapes.length, 2 ≤ turns.count i) → ((c.callers shapes).run turns).Finished) ∧
    (((c.callers shapes).run turns).Finished →
      c.RegisteredOnce shapes ((c.callers shapes).run turns)) := by
  refine ⟨fun shape => ?_, Callers.finished_run c, fun hfinished =>
    (Callers.underway_run c shapes turns).registeredOnce hfinished⟩
  have hsteps := Call.step_step c shape
  exact ⟨congrArg (fun r : Call × Catalog => [(shape, r.1)]) hsteps, congrArg Prod.snd hsteps⟩

/-! ### Three calls -/

/-- Two classes with one name and a third. -/
def twins : List ClassShape :=
  [.standIn "A" .unresolved, .standIn "A" .synthetic, .standIn "B" .unresolved]

/-- Both twins find their name free before the second of them registers its class; the first is
late and returns that one. -/
theorem registeredOnce_of_run_twins :
    ((({} : Catalog).callers twins).run [0, 1, 2, 1, 0, 2]).Finished ∧
      ({} : Catalog).RegisteredOnce twins ((({} : Catalog).callers twins).run [0, 1, 2, 1, 0, 2]) ∧
      ((({} : Catalog).callers twins).run [0, 1, 2, 1, 0, 2]).calls.map (·.2.isNew) =
        [false, true, true] := by
  obtain ⟨-, hends, honce⟩ := registeredOnce_of_run {} twins [0, 1, 2, 1, 0, 2]
  have hfinished := hends (by decide)
  exact ⟨hfinished, honce hfinished, rfl⟩

end Relabel.Catalog
