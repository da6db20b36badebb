import Mathlib.Data.List.Nodup
import Mathlib.Data.List.Perm.Subperm
import Relabel.LocalNames
import Relabel.Proofs.Steps

/-!
# How names of local variables are replaced

A table of local variables is gone through once. The first unusable name of a slot settles the name
of the slot: one that is taken over from an entry that keeps its own, or the stem of the type with
underscores behind it until it is free. Each name tried is longer than the one before, and only so
many are reserved or taken, so a free one is found. `Run` says what the answers are without a bound
on that search.

## Main results

- `Names.endsAt_free`: the search for a free name ends, and where.
- `exists_run_rename`, `Run.eq_rename`: there is one way through a table.
- `Run.answers`: the answers are the names that the slots have in the end.
- `Run.origin`: where the name of a slot comes from.
-/

namespace Relabel.LocalPolicy

variable {naming : LocalPolicy} {locals rest : List LocalEntry} {names names' final : Names}
  {entry e : LocalEntry} {index s t : UInt16} {name n : String} {r : Option String}
  {rs : List (Option String)}

/-! ### The search for a free name -/

/-- The next name to try for a slot, unless this one can be given to it. -/
def Names.nextName? (names : Names) (index : UInt16) (name : String) : Option String :=
  if names.blocked index name then some (name ++ "_") else none

/-- A name with underscores behind it. -/
def underscored (name : String) (n : Nat) : String :=
  name ++ String.ofList (List.replicate n '_')

/-- One underscore more at the end, or at the start of those to come. -/
theorem underscored_succ (name : String) (n : Nat) :
    underscored name (n + 1) = underscored (name ++ "_") n := by
  apply String.toList_injective
  simp [underscored, List.replicate_succ]

/-- Names with different numbers of underscores are different. -/
theorem underscored_injective (name : String) : Function.Injective (underscored name) := by
  intro m n h
  have hlength := congrArg String.length h
  simpa [underscored] using hlength

/-- A name is blocked where it is reserved, or taken by another slot. -/
theorem Names.blocked_iff : names.blocked index name = true ↔
    name ∈ reservedWords ∨ ∃ slot, names.taken[name]? = some slot ∧ slot ≠ index := by
  simp [Names.blocked, Option.any_eq_true]

/-- There is no need for a next name where the name is free. -/
theorem Names.nextName?_eq_none : names.nextName? index name = none ↔
    name ∉ reservedWords ∧ ∀ slot, names.taken[name]? = some slot → slot = index := by
  rw [Names.nextName?, ite_eq_right_iff, Names.blocked_iff]
  simp

/-- Of the names with underscores only as many are blocked as are reserved or taken. -/
theorem Names.exists_blocked_eq_false (names : Names) (index : UInt16) (name : String) :
    ∃ n < reservedWords.length + names.taken.size + 1,
      names.blocked index (underscored name n) = false := by
  by_contra hnone
  have hblocked : ∀ n < reservedWords.length + names.taken.size + 1,
      names.blocked index (underscored name n) = true := by simpa using hnone
  -- All these names would be reserved or taken, and there are more of them.
  have hsubset : (List.range (reservedWords.length + names.taken.size + 1)).map
      (underscored name) ⊆ reservedWords ++ names.taken.keys := by
    intro tried htried
    obtain ⟨n, hn, rfl⟩ := List.mem_map.1 htried
    rcases Names.blocked_iff.1 (hblocked n (List.mem_range.1 hn)) with hword | ⟨slot, hslot, -⟩
    · exact List.mem_append_left _ hword
    · refine List.mem_append_right _ (Std.HashMap.mem_keys.2 ?_)
      exact Std.HashMap.mem_iff_isSome_getElem?.2 (by simp [hslot])
  have hlength := (List.subperm_of_subset
    (List.nodup_range.map (underscored_injective name)) hsubset).length_le
  rw [List.length_map, List.length_range, List.length_append, Std.HashMap.length_keys] at hlength
  omega

/-- Within a bound that lies behind a free name the search ends at a free name. -/
theorem Names.endsAt_free_of_lt {fuel n : Nat}
    (hfree : names.blocked index (underscored name n) = false) (hn : n < fuel) :
    EndsAt (names.nextName? index) name (names.free index fuel name) := by
  induction fuel generalizing name n with
  | zero => exact absurd hn (Nat.not_lt_zero n)
  | succ fuel ih =>
    rw [Names.free]
    -- A name that is blocked has another underscore, unless it is the free one.
    by_cases hblocked : names.blocked index name = true
    · rw [if_pos hblocked]
      refine .pass (if_pos hblocked) ?_
      cases n with
      | zero =>
        rw [underscored, List.replicate_zero, String.ofList_nil, String.append_empty] at hfree
        rw [hfree] at hblocked
        cases hblocked
      | succ n =>
        rw [underscored_succ] at hfree
        exact ih hfree (Nat.lt_of_succ_lt_succ hn)
    · rw [if_neg hblocked]
      exact .stop (if_neg hblocked)

/-- The search for a free name ends before its bound is reached. -/
theorem Names.endsAt_free (names : Names) (index : UInt16) (name : String) :
    EndsAt (names.nextName? index) name
      (names.free index (reservedWords.length + names.taken.size + 1) name) := by
  obtain ⟨n, hn, hfree⟩ := names.exists_blocked_eq_false index name
  exact endsAt_free_of_lt hfree hn

/-- What the search ends at is what it starts from, with underscores behind it. -/
theorem Names.exists_underscored (h : EndsAt (names.nextName? index) name n) :
    ∃ k, n = underscored name k := by
  induction h with
  | stop => exact ⟨0, by simp [underscored]⟩
  | @pass a b c hnext _ ih =>
    obtain ⟨k, rfl⟩ := ih
    obtain rfl := Option.some.inj (Option.ite_none_right_eq_some.1 hnext).2
    exact ⟨k + 1, (underscored_succ a k).symm⟩

/-! ### Going through a table -/

/-- The name tried first for an entry. -/
def firstTry (entry : LocalEntry) : String :=
  stem entry.desc ++ toString entry.index.toNat

/-- The names after one is given to a slot. -/
def Names.give (names : Names) (index : UInt16) (name : String) : Names where
  taken := names.taken.insertIfNew name index
  given := names.given.insert index name

/-- What is answered for an entry, and the names afterwards. -/
inductive Step (naming : LocalPolicy) (locals : List LocalEntry) (names : Names)
    (entry : LocalEntry) : Option String → Names → Prop
  | keep : naming.isUnusable entry.name = false → Step naming locals names entry none names
  | again {name : String} : naming.isUnusable entry.name = true →
    names.given[entry.index]? = some name → Step naming locals names entry (some name) names
  | borrow {name : String} : naming.isUnusable entry.name = true →
    names.given[entry.index]? = none → inferred? naming locals entry.index = some name →
    Step naming locals names entry (some name) (names.give entry.index name)
  | make {name : String} : naming.isUnusable entry.name = true →
    names.given[entry.index]? = none → inferred? naming locals entry.index = none →
    EndsAt (names.nextName? entry.index) (firstTry entry) name →
    Step naming locals names entry (some name) (names.give entry.index name)

/-- What is answered for the entries that are left, and the names in the end. -/
inductive Run (naming : LocalPolicy) (locals : List LocalEntry) :
    Names → List LocalEntry → List (Option String) → Names → Prop
  | done {names : Names} : Run naming locals names [] [] names
  | next {names names' final : Names} {entry : LocalEntry} {rest : List LocalEntry}
    {r : Option String} {rs : List (Option String)} :
    Step naming locals names entry r names' → Run naming locals names' rest rs final →
    Run naming locals names (entry :: rest) (r :: rs) final

/-- A step does with one entry what the function does. -/
theorem step_renameOne (naming : LocalPolicy) (locals : List LocalEntry) (names : Names)
    (entry : LocalEntry) :
    Step naming locals names entry (renameOne naming locals names entry).1
      (renameOne naming locals names entry).2 := by
  unfold renameOne
  split
  · next hunusable =>
    split
    · next name hgiven => exact .again hunusable hgiven
    · next hgiven =>
      cases hinferred : inferred? naming locals entry.index with
      | some name => exact .borrow hunusable hgiven hinferred
      | none => exact .make hunusable hgiven hinferred (names.endsAt_free _ _)
  · next husable => exact .keep (Bool.eq_false_iff.2 husable)

/-- A run of steps gives what the function gives, by induction on the entries. -/
theorem exists_run_renameFrom (naming : LocalPolicy) (locals : List LocalEntry) (names : Names)
    (rest : List LocalEntry) :
    ∃ final, Run naming locals names rest (renameFrom naming locals names rest) final := by
  induction rest generalizing names with
  | nil => exact ⟨names, .done⟩
  | cons entry rest ih =>
    obtain ⟨final, hrest⟩ := ih (renameOne naming locals names entry).2
    exact ⟨final, .next (step_renameOne naming locals names entry) hrest⟩

/-- A table is gone through to its end. -/
theorem exists_run_rename (naming : LocalPolicy) (locals : List LocalEntry) :
    ∃ final, Run naming locals (keptNames naming locals) locals (naming.rename locals) final :=
  exists_run_renameFrom naming locals _ _

/-- A step has one outcome only. -/
theorem Step.eq_renameOne (h : Step naming locals names entry r names') :
    (r, names') = renameOne naming locals names entry := by
  cases h with
  | keep husable => simp [renameOne, husable]
  | again hunusable hgiven => simp [renameOne, hunusable, hgiven]
  | borrow hunusable hgiven hinferred =>
    simp [renameOne, hunusable, hgiven, hinferred, Names.give]
  | make hunusable hgiven hinferred hends =>
    obtain rfl := hends.unique (names.endsAt_free _ _)
    simp [renameOne, hunusable, hgiven, hinferred, Names.give, firstTry]

/-- There is one way through a table. -/
theorem Run.unique {rs' : List (Option String)} {final' : Names}
    (h : Run naming locals names rest rs final)
    (h' : Run naming locals names rest rs' final') : rs' = rs ∧ final' = final := by
  induction h generalizing rs' with
  | done =>
    cases h'
    exact ⟨rfl, rfl⟩
  | next hstep _ ih =>
    cases h' with
    | next hstep' hrest' =>
      -- The step is what the function does, so both runs agree on its result and on the names
      -- behind it.
      obtain ⟨rfl, rfl⟩ := Prod.ext_iff.1 (hstep.eq_renameOne.trans hstep'.eq_renameOne.symm)
      obtain ⟨rfl, rfl⟩ := ih hrest'
      exact ⟨rfl, rfl⟩

/-- So does a run, which is the renaming of the table. -/
theorem Run.eq_rename (h : Run naming locals (keptNames naming locals) locals rs final) :
    rs = naming.rename locals := by
  obtain ⟨_, hrun⟩ := exists_run_rename naming locals
  exact (hrun.unique h).1

/-! ### The names of slots -/

theorem Names.getElem?_given_give :
    (names.give index name).given[s]? = if index = s then some name else names.given[s]? := by
  simp [Names.give, Std.HashMap.getElem?_insert]

/-- A name stays with the slot that took it first. -/
theorem getElem?_insertIfNew_or (taken : Std.HashMap String UInt16) (name n : String)
    (index : UInt16) : (taken.insertIfNew name index)[n]? =
      taken[n]?.or (if name = n then some index else none) := by
  rw [Std.HashMap.getElem?_insertIfNew]
  by_cases hname : name = n
  · subst hname
    cases htaken : taken[name]? with
    | some slot =>
      have hmem : name ∈ taken := Std.HashMap.mem_iff_isSome_getElem?.2 (by simp [htaken])
      simp [hmem]
    | none =>
      have hnew : name ∉ taken := by simpa using htaken
      simp [hnew]
  · simp [hname]

theorem Names.getElem?_taken_give : (names.give index name).taken[n]? =
    names.taken[n]?.or (if name = n then some index else none) :=
  getElem?_insertIfNew_or names.taken name n index

/-- Every step keeps the names that slots have and the slots that names are taken by. -/
structure Names.Grows (names names' : Names) : Prop where
  given : ∀ (s : UInt16) (n : String), names.given[s]? = some n → names'.given[s]? = some n
  taken : ∀ (n : String) (s : UInt16), names.taken[n]? = some s → names'.taken[n]? = some s

theorem Names.Grows.refl (names : Names) : names.Grows names :=
  ⟨fun _ _ h => h, fun _ _ h => h⟩

theorem Names.Grows.trans (h : names.Grows names') (h' : names'.Grows final) :
    names.Grows final :=
  ⟨fun s n hn => h'.given s n (h.given s n hn), fun n s hs => h'.taken n s (h.taken n s hs)⟩

/-- A slot without a name may be given one. -/
theorem Names.grows_give (h : names.given[index]? = none) :
    names.Grows (names.give index name) where
  given s n hn := by
    rw [getElem?_given_give, if_neg, hn]
    rintro rfl
    cases h.symm.trans hn
  taken n s hs := by rw [getElem?_taken_give, hs, Option.some_or]

/-- A step only gives names. -/
theorem Step.grows (h : Step naming locals names entry r names') : names.Grows names' := by
  cases h with
  | keep | again => exact .refl names
  | borrow _ hgiven | make _ hgiven => exact Names.grows_give hgiven

/-- So does a run. -/
theorem Run.grows (h : Run naming locals names rest rs final) : names.Grows final := by
  induction h with
  | done => exact .refl _
  | next hstep _ ih => exact hstep.grows.trans ih

/-- The answer for an entry: the name of its slot, where its own cannot be kept. -/
inductive Answer (naming : LocalPolicy) (final : Names) (entry : LocalEntry) :
    Option String → Prop
  | kept : naming.isUnusable entry.name = false → Answer naming final entry none
  | replaced {name : String} : naming.isUnusable entry.name = true →
    final.given[entry.index]? = some name → Answer naming final entry (some name)

/-- What a step answers is what the rules say. -/
theorem Step.answer (h : Step naming locals names entry r names') :
    Answer naming names' entry r := by
  cases h with
  | keep husable => exact .kept husable
  | again hunusable hgiven => exact .replaced hunusable hgiven
  | borrow hunusable | make hunusable =>
    exact .replaced hunusable (by rw [Names.getElem?_given_give, if_pos rfl])

/-- The answers are read off the names in the end. -/
theorem Run.answers (h : Run naming locals names rest rs final) :
    List.Forall₂ (Answer naming final) rest rs := by
  induction h with
  | done => exact .nil
  | next hstep hrest ih =>
    refine .cons ?_ ih
    cases hstep.answer with
    | kept husable => exact .kept husable
    | replaced hunusable hgiven => exact .replaced hunusable (hrest.grows.given _ _ hgiven)

/-- So is each answer of a run. -/
theorem Run.answer (h : Run naming locals names rest rs final) {i : Nat}
    (hi : rest[i]? = some e) (hr : rs[i]? = some r) : Answer naming final e r := by
  obtain ⟨r', hr', hanswer⟩ := exists_getElem?_of_forall₂ h.answers hi
  obtain rfl := Option.some.inj (hr.symm.trans hr')
  exact hanswer

/-- A name that was answered has been given to the slot. -/
theorem Run.given (h : Run naming locals names rest rs final) {i : Nat}
    (hi : rest[i]? = some e) (hn : rs[i]? = some (some n)) : final.given[e.index]? = some n := by
  cases h.answer hi hn with
  | replaced _ hgiven => exact hgiven

/-! ### Names that are kept -/

/-- The first entry that keeps a name. -/
def keeper? (naming : LocalPolicy) (locals : List LocalEntry) (name : String) :
    Option LocalEntry :=
  locals.find? fun entry => !naming.isUnusable entry.name && entry.name = name

/-- A name that is kept is taken by the slot of the first entry that keeps it. -/
theorem getElem?_taken_keptNames (naming : LocalPolicy) (locals : List LocalEntry)
    (name : String) :
    (keptNames naming locals).taken[name]? = (keeper? naming locals name).map (·.index) := by
  -- The table is filled entry by entry; what is in it stays.
  suffices hfold : ∀ taken : Std.HashMap String UInt16,
      (locals.foldl (fun taken entry =>
        if naming.isUnusable entry.name then taken
        else taken.insertIfNew entry.name entry.index) taken)[name]? =
      taken[name]?.or ((keeper? naming locals name).map (·.index)) by
    simpa [keptNames] using hfold {}
  induction locals with
  | nil => simp [keeper?]
  | cons entry rest ih =>
    intro taken
    rw [List.foldl_cons, ih]
    by_cases hunusable : naming.isUnusable entry.name = true
    · simp [keeper?, hunusable]
    · rw [if_neg hunusable, getElem?_insertIfNew_or, Option.or_assoc]
      -- The entry at hand has the name, and is its keeper where no one before it is.
      by_cases hname : entry.name = name
      · subst hname
        simp [keeper?, hunusable]
      · simp [keeper?, hname]

/-- An entry of this slot keeps this name. -/
def KeptIn (naming : LocalPolicy) (locals : List LocalEntry) (slot : UInt16) (name : String) :
    Prop :=
  ∃ e ∈ locals, naming.isUnusable e.name = false ∧ e.name = name ∧ e.index = slot

/-- A name that is inferred is kept in its slot. -/
theorem KeptIn.of_inferred? (h : inferred? naming locals s = some n) :
    KeptIn naming locals s n := by
  obtain ⟨e, he, rfl⟩ := Option.map_eq_some_iff.1 (Option.ite_none_right_eq_some.1 h).2
  have hmem := List.mem_of_find?_eq_some he
  have hkept := List.find?_some he
  simp only [Bool.and_eq_true, Bool.not_eq_true', decide_eq_true_eq] at hkept
  exact ⟨e, hmem, hkept.1, rfl, hkept.2⟩

/-! ### Where names come from -/

/-- How a name is found for the slot of an entry, when at least the names `names` are taken. -/
inductive Origin (naming : LocalPolicy) (locals : List LocalEntry) (names : Names)
    (entry : LocalEntry) : String → Prop
  | borrowed {name : String} : inferred? naming locals entry.index = some name →
    Origin naming locals names entry name
  | made {names' : Names} {name : String} : inferred? naming locals entry.index = none →
    names.Grows names' → EndsAt (names'.nextName? entry.index) (firstTry entry) name →
    Origin naming locals names entry name

/-- Where a name comes from may be told by names that have grown. -/
theorem Origin.of_grows (h : names.Grows names') (ho : Origin naming locals names' entry n) :
    Origin naming locals names entry n := by
  cases ho with
  | borrowed hinferred => exact .borrowed hinferred
  | made hinferred hgrows hends => exact .made hinferred (h.trans hgrows) hends

/-- The entry that settles the name of a slot: the first whose own name cannot be kept. -/
def settles? (naming : LocalPolicy) (locals : List LocalEntry) (slot : UInt16) :
    Option LocalEntry :=
  locals.find? fun entry => naming.isUnusable entry.name && entry.index = slot

/-- The entry that settles a slot has it, and no name of use. -/
theorem settles?_eq_some (h : settles? naming locals s = some entry) :
    naming.isUnusable entry.name = true ∧ entry.index = s := by
  simpa using List.find?_some h

/-- An entry of another slot, or one with a name of use, settles nothing. -/
theorem settles?_cons_of_ne (h : ¬(naming.isUnusable entry.name = true ∧ entry.index = s)) :
    settles? naming (entry :: rest) s = settles? naming rest s :=
  List.find?_cons_of_neg (by simpa using h)

/-- The first entry without a name of use settles its slot. -/
theorem settles?_cons_self (h : naming.isUnusable entry.name = true) :
    settles? naming (entry :: rest) entry.index = some entry :=
  List.find?_cons_of_pos (by simp [h])

/-- A slot that gets its name on the way gets it from the entry that settles it. -/
theorem Run.origin (h : Run naming locals names rest rs final)
    (hnew : names.given[s]? = none) (hn : final.given[s]? = some n) :
    ∃ entry, settles? naming rest s = some entry ∧ Origin naming locals names entry n := by
  induction h with
  | done => cases hnew.symm.trans hn
  | @next names names' final entry rest r rs hstep hrest ih =>
    -- An entry that gives no name to this slot can be left out.
    have hskip (hother : ¬(naming.isUnusable entry.name = true ∧ entry.index = s))
        (hnew' : names'.given[s]? = none) :
        ∃ e, settles? naming (entry :: rest) s = some e ∧ Origin naming locals names e n := by
      obtain ⟨e, hsettles, horigin⟩ := ih hnew' hn
      exact ⟨e, (settles?_cons_of_ne hother).trans hsettles, horigin.of_grows hstep.grows⟩
    have hgives {name : String} (hunusable : naming.isUnusable entry.name = true)
        (hnames : names' = names.give entry.index name)
        (horigin : Origin naming locals names entry name) :
        ∃ e, settles? naming (entry :: rest) s = some e ∧ Origin naming locals names e n := by
      subst hnames
      by_cases hslot : entry.index = s
      · subst hslot
        have hname := hrest.grows.given entry.index name
          (by rw [Names.getElem?_given_give, if_pos rfl])
        obtain rfl := Option.some.inj (hname.symm.trans hn)
        exact ⟨entry, settles?_cons_self hunusable, horigin⟩
      · refine hskip (fun h => hslot h.2) ?_
        rw [Names.getElem?_given_give, if_neg hslot, hnew]
    cases hstep with
    | keep husable => exact hskip (by simp [husable]) hnew
    | again _ hgiven =>
      refine hskip (fun h => ?_) hnew
      rw [h.2] at hgiven
      cases hnew.symm.trans hgiven
    | borrow hunusable _ hinferred => exact hgives hunusable rfl (.borrowed hinferred)
    | make hunusable _ hinferred hends =>
      exact hgives hunusable rfl (.made hinferred (.refl names) hends)

/-- At the start no slot has a name, so every name comes from an entry of the table. -/
theorem Run.origin_of_keptNames
    (h : Run naming locals (keptNames naming locals) locals rs final)
    (hn : final.given[s]? = some n) : ∃ entry, settles? naming locals s = some entry ∧
      Origin naming locals (keptNames naming locals) entry n :=
  h.origin Std.HashMap.getElem?_empty hn

end Relabel.LocalPolicy
