import Relabel.Proofs.LocalNames.Runs

/-!
# Names of different slots

Entries of one slot share their replacement. Entries of different slots get different ones, as long
as none is taken over: a name that is given to a slot is taken by it from then on. Against the names
that are kept the search is less careful. It knows one slot for each of them, that of the first
entry that keeps it, so a slot can be given a name that it shares with a later one.

## Main results

- `consistent_rename`: one answer for each entry, one name for each slot, another for another slot.
- `onlyIn_iff_of_rename`: when a replacement is also the kept name of another slot.
-/

namespace Relabel.LocalPolicy

variable {naming : LocalPolicy} {locals rest : List LocalEntry} {names names' final : Names}
  {entry e : LocalEntry} {index s t : UInt16} {name n : String} {r : Option String}
  {rs : List (Option String)}

/-! ### Different names for different slots -/

/-- The names that slots have are taken by these slots. -/
def Names.Owned (names : Names) : Prop :=
  ∀ (s : UInt16) (n : String), names.given[s]? = some n → names.taken[n]? = some s

/-- An owned name is given to one slot only. -/
theorem Names.Owned.eq (h : names.Owned) (hs : names.given[s]? = some n)
    (ht : names.given[t]? = some n) : s = t :=
  Option.some.inj ((h s n hs).symm.trans (h t n ht))

/-- A name that is free for a slot is the slot's once it is given to it. -/
theorem Names.Owned.give (h : names.Owned) (hfree : names.nextName? index name = none) :
    (names.give index name).Owned := by
  intro s n hn
  rw [getElem?_given_give] at hn
  -- The slot is the one that is given the name, or had a name before.
  split at hn
  · next hslot =>
    obtain rfl := Option.some.inj hn
    subst hslot
    rw [getElem?_taken_give, if_pos rfl]
    cases htaken : names.taken[name]? with
    | some slot => rw [(nextName?_eq_none.1 hfree).2 slot htaken, Option.some_or]
    | none => rw [Option.none_or]
  · rw [getElem?_taken_give, h s n hn, Option.some_or]

/-- Where no name is taken over, every step gives a free one. -/
theorem Step.owned (hinfer : naming.inferFromSameIndex = false) (hnames : names.Owned)
    (h : Step naming locals names entry r names') : names'.Owned := by
  cases h with
  | keep | again => exact hnames
  | borrow _ _ hinferred =>
    rw [inferred?, if_neg (by simp [hinfer])] at hinferred
    cases hinferred
  | make _ _ _ hends => exact hnames.give hends.next_eq_none

/-- Names stay owned while a run gives out more of them. -/
theorem Run.owned (hinfer : naming.inferFromSameIndex = false) (hnames : names.Owned)
    (h : Run naming locals names rest rs final) : final.Owned := by
  induction h with
  | done => exact hnames
  | next hstep _ ih => exact ih (hstep.owned hinfer hnames)

/-- What a table is answered: each entry that has an unusable name gets a name, which is that of its
slot and, if none is taken over, of no other slot. -/
structure Consistent (naming : LocalPolicy) (locals : List LocalEntry)
    (answers : List (Option String)) : Prop where
  length_eq : answers.length = locals.length
  isSome_iff : ∀ (i : Nat) (e : LocalEntry) (r : Option String),
    locals[i]? = some e → answers[i]? = some r → (r.isSome ↔ naming.isUnusable e.name)
  same : ∀ (i j : Nat) (e f : LocalEntry) (n m : String),
    locals[i]? = some e → answers[i]? = some (some n) →
    locals[j]? = some f → answers[j]? = some (some m) → e.index = f.index → n = m
  different : naming.inferFromSameIndex = false →
    ∀ (i j : Nat) (e f : LocalEntry) (n m : String),
      locals[i]? = some e → answers[i]? = some (some n) →
      locals[j]? = some f → answers[j]? = some (some m) → e.index ≠ f.index → n ≠ m

/-- Going through a table ends, however long each search for a free name may take, in one way, and
what comes of it is consistent. -/
theorem consistent_rename (naming : LocalPolicy) (locals : List LocalEntry) :
    (∀ answers, (∃ final, Run naming locals (keptNames naming locals) locals answers final) ↔
      answers = naming.rename locals) ∧
    Consistent naming locals (naming.rename locals) := by
  obtain ⟨final, hrun⟩ := exists_run_rename naming locals
  refine ⟨fun answers => ⟨?_, ?_⟩, ?_⟩
  · rintro ⟨_, hother⟩
    exact hother.eq_rename
  · rintro rfl
    exact ⟨final, hrun⟩
  -- Names are owned from the start, when none has been given.
  have howned (hinfer : naming.inferFromSameIndex = false) : final.Owned := by
    refine hrun.owned hinfer fun s n hn => ?_
    cases Std.HashMap.getElem?_empty.symm.trans hn
  refine
    { length_eq := hrun.answers.length_eq.symm
      isSome_iff := fun i e r hi hr => ?_
      same := fun i j e f n m hi hn hj hm hslot => ?_
      different := fun hinfer i j e f n m hi hn hj hm hslot heq => ?_ }
  · cases hrun.answer hi hr with
    | kept husable => simp [husable]
    | replaced hunusable => simp [hunusable]
  · have hname := hrun.given hi hn
    rw [hslot] at hname
    exact Option.some.inj (hname.symm.trans (hrun.given hj hm))
  · subst heq
    exact hslot ((howned hinfer).eq (hrun.given hi hn) (hrun.given hj hm))

/-! ### Names that are kept -/

/-- A name that has a keeper is kept in the slot of that keeper. -/
theorem KeptIn.of_keeper? (h : keeper? naming locals n = some e) :
    KeptIn naming locals e.index n := by
  have hmem := List.mem_of_find?_eq_some h
  have hkept := List.find?_some h
  simp only [Bool.and_eq_true, Bool.not_eq_true', decide_eq_true_eq] at hkept
  exact ⟨e, hmem, hkept.1, hkept.2, rfl⟩

/-- A name that is kept in a slot has a keeper. -/
theorem KeptIn.exists_keeper? (h : KeptIn naming locals s n) :
    ∃ e, keeper? naming locals n = some e := by
  obtain ⟨e, hmem, husable, rfl, -⟩ := h
  exact Option.isSome_iff_exists.1 (List.find?_isSome.2 ⟨e, hmem, by simp [husable]⟩)

/-- A replacement that another slot keeps, too, is taken over from its own slot, or its own slot is
the first that keeps it. -/
theorem Origin.keptIn (h : Origin naming locals (keptNames naming locals) entry n)
    (hother : KeptIn naming locals s n) :
    inferred? naming locals entry.index = some n ∨
      ∃ first, keeper? naming locals n = some first ∧ first.index = entry.index := by
  cases h with
  | borrowed hinferred => exact .inl hinferred
  | made _ hgrows hends =>
    obtain ⟨first, hfirst⟩ := hother.exists_keeper?
    -- A kept name is taken by its first keeper, and no other slot is given it.
    have htaken : (keptNames naming locals).taken[n]? = some first.index := by
      rw [getElem?_taken_keptNames, hfirst, Option.map_some]
    have hslot := (Names.nextName?_eq_none.1 hends.next_eq_none).2 _ (hgrows.taken _ _ htaken)
    exact .inr ⟨first, hfirst, hslot⟩

/-- No entry of another slot keeps this name. -/
def OnlyIn (naming : LocalPolicy) (locals : List LocalEntry) (slot : UInt16) (name : String) :
    Prop :=
  ∀ (j : Nat) (f : LocalEntry), locals[j]? = some f → (naming.rename locals)[j]? = some none →
    f.index ≠ slot → f.name ≠ name

/-- A name is kept in one slot only where no other slot keeps it. -/
theorem onlyIn_iff : OnlyIn naming locals s n ↔ ∀ t ≠ s, ¬KeptIn naming locals t n := by
  obtain ⟨final, hrun⟩ := exists_run_rename naming locals
  constructor
  -- An entry that keeps its name is answered with it.
  · rintro honly _ hslot ⟨f, hmem, husable, hname, rfl⟩
    obtain ⟨j, hj⟩ := List.mem_iff_getElem?.1 hmem
    obtain ⟨r, hr, hanswer⟩ := exists_getElem?_of_forall₂ hrun.answers hj
    cases hanswer with
    | kept => exact honly j f hj hr hslot hname
    | replaced hunusable => cases husable.symm.trans hunusable
  · intro hnone j f hj hr hslot hname
    cases hrun.answer hj hr with
    | kept husable =>
      exact hnone _ hslot ⟨f, List.mem_of_getElem? hj, husable, hname, rfl⟩

/-- A replacement is kept by no other slot, unless its own slot keeps it, too: then it is taken over
from there, or its own slot is the first that keeps it. -/
theorem onlyIn_iff_of_rename {i : Nat} (hi : locals[i]? = some e)
    (hn : (naming.rename locals)[i]? = some (some n)) :
    (OnlyIn naming locals e.index n ↔
      ¬(KeptIn naming locals e.index n ∧ ∃ t ≠ e.index, KeptIn naming locals t n)) ∧
    ∀ t, KeptIn naming locals t n → inferred? naming locals e.index = some n ∨
      ∃ first, keeper? naming locals n = some first ∧ first.index = e.index := by
  obtain ⟨final, hrun⟩ := exists_run_rename naming locals
  obtain ⟨entry, hsettles, horigin⟩ := hrun.origin_of_keptNames (hrun.given hi hn)
  rw [← (settles?_eq_some hsettles).2]
  refine ⟨onlyIn_iff.trans ⟨?_, ?_⟩, fun t hkept => horigin.keptIn hkept⟩
  · rintro honly ⟨-, t, hslot, hother⟩
    exact honly t hslot hother
  · intro hown t hslot hother
    refine hown ⟨?_, t, hslot, hother⟩
    -- The slot has the name from its first entry, or is the first that keeps it.
    rcases horigin.keptIn hother with hinferred | ⟨first, hfirst, hsame⟩
    · exact .of_inferred? hinferred
    · exact hsame ▸ .of_keeper? hfirst

/-- The name `i1` is kept in two slots, and the first of them needs a name for a number. -/
def shared : List LocalEntry :=
  [⟨"i1", "I", 1⟩, ⟨"i1", "I", 5⟩, ⟨"if", "I", 1⟩]

/-- The entry `if` is given a name that its own slot and another one keep. -/
theorem rename_shared : rename {} shared = [none, none, some "i1"] := by
  have hkept : isUnusable {} "i1" = false := by decide +kernel
  have htaken : (keptNames {} shared).taken["i1"]? = some 1 := by
    rw [getElem?_taken_keptNames]
    decide +kernel
  -- The name is free for slot 1, as that slot has taken it.
  have hfree : (keptNames {} shared).nextName? 1 "i1" = none := by
    refine Names.nextName?_eq_none.2 ⟨by decide +kernel, fun slot hslot => ?_⟩
    exact Option.some.inj (hslot.symm.trans htaken)
  have hmade : Step {} shared (keptNames {} shared) ⟨"if", "I", 1⟩ (some "i1")
      ((keptNames {} shared).give 1 "i1") :=
    .make (by decide +kernel) Std.HashMap.getElem?_empty rfl (.stop hfree)
  exact (Run.eq_rename (.next (.keep hkept) (.next (.keep hkept) (.next hmade .done)))).symm

/-- The replacement in slot 1 is also kept in slot 5. -/
theorem onlyIn_iff_of_rename_shared :
    shared[2]? = some ⟨"if", "I", 1⟩ ∧ (rename {} shared)[2]? = some (some "i1") ∧
      ¬OnlyIn {} shared 1 "i1" := by
  have hn : (rename {} shared)[2]? = some (some "i1") := by rw [rename_shared]; rfl
  refine ⟨rfl, hn, fun honly => (onlyIn_iff_of_rename (e := ⟨"if", "I", 1⟩) rfl hn).1.1 honly ?_⟩
  exact ⟨⟨⟨"i1", "I", 1⟩, by simp [shared], by decide +kernel, rfl, rfl⟩, 5, by decide,
    ⟨"i1", "I", 5⟩, by simp [shared], by decide +kernel, rfl, rfl⟩

end Relabel.LocalPolicy
