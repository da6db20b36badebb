import Relabel.Renaming.Constants
import Relabel.Proofs.Pool.Reading

/-!
# What becomes of the constants of a pool

`Scope.Becomes` relates an entry of the pool before a renaming to what stands in its slot
afterwards. It reads the new entry through texts, and names with their descriptors, only; as these
never change, the relation lasts while the other entries are still being replaced.

## Main results

- `Scope.Ready.mapConstant`: what takes the place of one entry.
- `Scope.mapPool_induction`: what each entry keeps, going through the pool keeps.
- `Scope.mapPool_ok`: what becomes of all entries.
-/

namespace Relabel

/-- The kind of member that a reference leads to. -/
def ReferenceKind.member : ReferenceKind → MemberKind
  | .field => .field
  | .method | .interfaceMethod => .method

namespace Scope

open Pool

/-! ### Old names under their new forms -/

/-- A coherent pool in which all names of the source are still there. -/
structure Ready (s : Scope) (p : Pool) : Prop where
  coherent : p.Coherent
  keeps : s.source.Keeps p

/-- A scope stays ready while the pool is extended. -/
theorem Ready.of_extends {s : Scope} {p q : Pool} (hp : s.Ready p) (hq : q.Coherent)
    (h : p.Extends q) : s.Ready q :=
  ⟨hq, hp.keeps.trans h.keeps⟩

/-- The index of a new text, if there is one, reads as it, else the old index does. -/
theorem Ready.newIndex {s : Scope} {new : Option String} {old : String} {p q : Pool}
    {i j : UInt16} (hp : s.Ready p) (hold : s.source.utf8 i = .ok old)
    (h : Scope.newIndex new i p = .ok j q) :
    q.Coherent ∧ p.Extends q ∧ q.utf8 j = .ok (new.getD old) := by
  cases new with
  | some new => exact hp.coherent.internText h
  | none =>
    obtain ⟨rfl, rfl⟩ := EStateM.pure_eq_ok.1 h
    exact ⟨hp.coherent, Extends.refl _, hp.keeps.utf8 hold⟩

/-- The index of the new form of a text reads as that form. -/
theorem Ready.mapText {s : Scope} {f : String → String} {p q : Pool} {i j : UInt16}
    (hp : s.Ready p) (h : s.mapText f i p = .ok j q) :
    ∃ old, s.source.utf8 i = .ok old ∧ q.Coherent ∧ p.Extends q ∧ q.utf8 j = .ok (f old) := by
  simp only [Scope.mapText, EStateM.bind_eq_ok, Scope.text, EStateM.ofExcept_eq_ok] at h
  obtain ⟨old, _, ⟨hold, rfl⟩, h⟩ := h
  refine ⟨old, hold, ?_⟩
  split at h
  · next hsame =>
    obtain ⟨rfl, rfl⟩ := EStateM.pure_eq_ok.1 h
    exact ⟨hp.coherent, Extends.refl _, by rw [hsame]; exact hp.keeps.utf8 hold⟩
  · exact hp.coherent.internText h

/-- The index of a new name and descriptor reads as the two; where there is none, the old index
does. -/
theorem Ready.changedNames {s : Scope} {name desc : String} {newName : Option String}
    {p q : Pool} {r : Option UInt16} (hp : s.Ready p)
    (h : s.changedNames name desc newName p = .ok r q) :
    q.Coherent ∧ p.Extends q ∧ ∀ names, s.source.nameAndType names = .ok (name, desc) →
      q.nameAndType (r.getD names) = .ok (newName.getD name, s.names.mapDescriptor desc) := by
  simp only [Scope.changedNames] at h
  split at h
  -- Without a change the old name and type is kept, and read from its old slot.
  · next hsame =>
    obtain ⟨rfl, rfl⟩ := EStateM.pure_eq_ok.1 h
    refine ⟨hp.coherent, Extends.refl _, fun names hnames => ?_⟩
    obtain ⟨hnone, hdesc⟩ := hsame
    rw [Option.isNone_iff_eq_none.1 hnone, hdesc]
    exact hp.keeps.nameAndType hnames
  · obtain ⟨i, hi, rfl⟩ := EStateM.map_eq_ok.1 h
    obtain ⟨hq, hext, hread⟩ := hp.coherent.internNameAndType hi
    exact ⟨hq, hext, fun _ _ => hread⟩

/-- A new index only interns a name. -/
theorem onlyInterns_newIndex (new : Option String) (i : UInt16) :
    OnlyInterns (newIndex new i) := by
  cases new with
  | some new => exact .internText new
  | none => exact .pure i

/-- Mapping a text only interns the new one. -/
theorem onlyInterns_mapText (s : Scope) (f : String → String) (i : UInt16) :
    OnlyInterns (s.mapText f i) := by
  refine .bind (.ofExcept _) fun old => ?_
  dsimp only
  split
  · exact .pure i
  · exact .internText _

/-- Changed names only intern a name, a type and the pair of both. -/
theorem onlyInterns_changedNames (s : Scope) (name desc : String) (newName : Option String) :
    OnlyInterns (s.changedNames name desc newName) := by
  unfold Scope.changedNames
  dsimp only
  split
  · exact .pure none
  · exact .map _ (.internNameAndType _ _)

/-! ### One entry -/

/-- The new name of a member reference. -/
def newMemberName (s : Scope) (kind : ReferenceKind) (owner name desc : String) : String :=
  (s.names.mapMember kind.member { owner, name, desc }).getD name

/-- What becomes of an entry of the source, read through the pool `q`. -/
inductive Becomes (s : Scope) (methods : Array BootstrapMethod) (q : Pool) :
    Constant → Constant → Prop
  | ofClass {i i' : UInt16} {old : String} :
    s.source.utf8 i = .ok old →
    q.utf8 i' = .ok ((s.names.mapReference old).getD old) →
    Becomes s methods q (.ofClass i) (.ofClass i')
  | member {kind : ReferenceKind} {owner i i' : UInt16} {ownerName name desc : String} :
    s.source.className owner = .ok ownerName →
    s.source.nameAndType i = .ok (name, desc) →
    q.nameAndType i' =
      .ok (s.newMemberName kind ownerName name desc, s.names.mapDescriptor desc) →
    Becomes s methods q (.member kind owner i) (.member kind owner i')
  | methodType {i i' : UInt16} {old : String} :
    s.source.utf8 i = .ok old →
    q.utf8 i' = .ok (s.names.mapDescriptor old) →
    Becomes s methods q (.methodType i) (.methodType i')
  | invokeDynamic {bootstrap i i' : UInt16} {name desc : String} {newName : Option String} :
    s.source.nameAndType i = .ok (name, desc) →
    s.callSiteName methods[bootstrap.toNat]? name desc = .ok newName →
    q.nameAndType i' = .ok (newName.getD name, s.names.mapDescriptor desc) →
    Becomes s methods q (.invokeDynamic bootstrap i) (.invokeDynamic bootstrap i')
  | dynamic {bootstrap i i' : UInt16} {name desc : String} :
    s.source.nameAndType i = .ok (name, desc) →
    q.nameAndType i' = .ok (name, s.names.mapDescriptor desc) →
    Becomes s methods q (.dynamic bootstrap i) (.dynamic bootstrap i')
  | stays {c : Constant} : c.isPointer = false → Becomes s methods q c c

variable {s : Scope} {methods : Array BootstrapMethod} {p q : Pool}

/-- What an entry became lasts while names stay. -/
theorem Becomes.mono {c c' : Constant} (hpq : p.Keeps q) (h : s.Becomes methods p c c') :
    s.Becomes methods q c c' := by
  cases h with
  | ofClass hold hnew => exact .ofClass hold (hpq.utf8 hnew)
  | member howner hold hnew => exact .member howner hold (hpq.nameAndType hnew)
  | methodType hold hnew => exact .methodType hold (hpq.utf8 hnew)
  | invokeDynamic hold hsite hnew => exact .invokeDynamic hold hsite (hpq.nameAndType hnew)
  | dynamic hold hnew => exact .dynamic hold (hpq.nameAndType hnew)
  | stays hc => exact .stays hc

/-- What is no pointer stays. -/
theorem Becomes.eq_of_isPointer_eq_false {c c' : Constant} (h : s.Becomes methods q c c')
    (hc : c.isPointer = false) : c' = c := by
  cases h with
  | stays => rfl
  | _ => cases hc

/-- A pointer becomes a pointer. -/
theorem Becomes.isPointer_eq {c c' : Constant} (h : s.Becomes methods q c c') :
    c'.isPointer = c.isPointer := by
  cases h <;> rfl

/-- What takes the place of an entry, and that only a pointer is replaced. -/
theorem Ready.mapConstant {i : UInt16} {c : Constant} {r : Option Constant} (hp : s.Ready p)
    (hc : s.source.get? i = some c) (h : s.mapConstant methods i c p = .ok r q) :
    q.Coherent ∧ p.Extends q ∧ s.Becomes methods q c (r.getD c) ∧ (r.isSome → c.isPointer) := by
  cases c with
  | ofClass name =>
    simp only [Scope.mapConstant, EStateM.bind_eq_ok, Scope.text, EStateM.ofExcept_eq_ok] at h
    obtain ⟨old, _, ⟨hold, rfl⟩, h⟩ := h
    cases hnew : s.names.mapReference old with
    | none =>
      rw [hnew] at h
      obtain ⟨rfl, rfl⟩ := EStateM.pure_eq_ok.1 h
      refine ⟨hp.coherent, Extends.refl _, .ofClass hold ?_, fun _ => rfl⟩
      rw [hnew]
      exact hp.keeps.utf8 hold
    | some new =>
      simp only [hnew, EStateM.bind_eq_ok, EStateM.pure_eq_ok] at h
      obtain ⟨j, _, hj, rfl, rfl⟩ := h
      obtain ⟨hq, hext, hread⟩ := hp.coherent.internText hj
      exact ⟨hq, hext, .ofClass hold (by rw [hnew]; exact hread), fun _ => rfl⟩
  | member kind owner names =>
    simp only [Scope.mapConstant, EStateM.bind_eq_ok, EStateM.ofExcept_eq_ok,
      EStateM.pure_eq_ok] at h
    obtain ⟨ref, _, ⟨href, rfl⟩, j, _, hj, rfl, rfl⟩ := h
    -- The reference that was read is the entry at hand.
    obtain ⟨_, _, hget, hnames, howner⟩ := memberReference_eq_ok.1 href
    rw [hc, Option.some.injEq, Constant.member.injEq] at hget
    obtain ⟨rfl, rfl, rfl⟩ := hget
    obtain ⟨hq, hext, hread⟩ := hp.changedNames hj
    refine ⟨hq, hext, ?_, fun _ => rfl⟩
    rw [Option.getD_map]
    refine .member howner hnames ((hread names hnames).trans ?_)
    -- The two kinds of methods ask the same question.
    obtain ⟨kind, ownerName, name, desc⟩ := ref
    cases kind <;> rfl
  | methodType desc =>
    simp only [Scope.mapConstant, EStateM.bind_eq_ok, EStateM.pure_eq_ok] at h
    obtain ⟨j, _, hj, rfl, rfl⟩ := h
    obtain ⟨old, hold, hq, hext, hread⟩ := hp.mapText hj
    exact ⟨hq, hext, .methodType hold hread, fun _ => rfl⟩
  | invokeDynamic bootstrap names =>
    simp only [Scope.mapConstant, EStateM.bind_eq_ok, Scope.nameAndType, EStateM.ofExcept_eq_ok,
      EStateM.pure_eq_ok] at h
    obtain ⟨⟨name, desc⟩, _, ⟨hnames, rfl⟩, newName, _, ⟨hsite, rfl⟩, j, _, hj, rfl, rfl⟩ := h
    obtain ⟨hq, hext, hread⟩ := hp.changedNames hj
    refine ⟨hq, hext, ?_, fun _ => rfl⟩
    rw [Option.getD_map]
    exact .invokeDynamic hnames hsite (hread names hnames)
  | dynamic bootstrap names =>
    simp only [Scope.mapConstant, EStateM.bind_eq_ok, Scope.nameAndType, EStateM.ofExcept_eq_ok,
      EStateM.pure_eq_ok] at h
    obtain ⟨⟨name, desc⟩, _, ⟨hnames, rfl⟩, j, _, hj, rfl, rfl⟩ := h
    obtain ⟨hq, hext, hread⟩ := hp.changedNames hj
    refine ⟨hq, hext, ?_, fun _ => rfl⟩
    rw [Option.getD_map]
    exact .dynamic hnames (hread names hnames)
  | _ =>
    obtain ⟨rfl, rfl⟩ := EStateM.pure_eq_ok.1 h
    exact ⟨hp.coherent, Extends.refl _, .stays rfl, by simp⟩

/-- Replacing an entry is a number of searches. -/
theorem onlyInterns_mapConstant (s : Scope) (methods : Array BootstrapMethod) (i : UInt16)
    (c : Constant) : OnlyInterns (s.mapConstant methods i c) := by
  cases c with
  | ofClass name =>
    refine .bind (.ofExcept _) fun old => ?_
    split
    · exact .bind (.internText _) fun j => .pure _
    · exact .pure none
  | member kind owner names =>
    exact .bind (.ofExcept _) fun ref => .bind (onlyInterns_changedNames _ _ _ _) fun j => .pure _
  | methodType desc => exact .bind (onlyInterns_mapText _ _ _) fun j => .pure _
  | invokeDynamic bootstrap names =>
    refine .bind (.ofExcept _) fun old => .bind (.ofExcept _) fun newName => ?_
    exact .bind (onlyInterns_changedNames _ _ _ _) fun j => .pure _
  | dynamic bootstrap names =>
    exact .bind (.ofExcept _) fun old => .bind (onlyInterns_changedNames _ _ _ _) fun j => .pure _
  | _ => exact .pure none

/-! ### All entries -/

/-- How far a renaming of the pool has come: the slots below `k` hold what their entries become, the
others of the source are untouched, and behind them stand names, each in one slot only. -/
structure Halfway (s : Scope) (methods : Array BootstrapMethod) (k : Nat) (p : Pool) : Prop where
  coherent : p.Coherent
  done : ∀ (i : Nat) (c : Constant), i < k → s.source.slots[i]? = some c →
    ∃ c', p.slots[i]? = some c' ∧ s.Becomes methods p c c'
  pending : ∀ (i : Nat) (c : Constant), k ≤ i → s.source.slots[i]? = some c → p.slots[i]? = some c
  added : ∀ (i : Nat) (c : Constant), s.source.size ≤ i → p.slots[i]? = some c →
    c.isName ∧ ∀ j : Nat, p.slots[j]? = some c → j = i

namespace Halfway

variable {k : Nat}

/-- Halfway through the constants the scope is ready. -/
theorem ready (h : s.Halfway methods k p) : s.Ready p where
  coherent := h.coherent
  keeps := by
    intro i c hc hi
    by_cases hik : i < k
    · obtain ⟨c', hc', hbecomes⟩ := h.done i c hik hi
      rwa [hbecomes.eq_of_isPointer_eq_false hc] at hc'
    · exact h.pending i c (Nat.le_of_not_lt hik) hi

/-- Searches undo nothing of what was reached. -/
theorem of_extends (h : s.Halfway methods k p) (hq : q.Coherent) (hpq : p.Extends q) :
    s.Halfway methods k q where
  coherent := hq
  done := by
    intro i c hik hi
    obtain ⟨c', hc', hbecomes⟩ := h.done i c hik hi
    exact ⟨c', hpq.old i c' hc', hbecomes.mono hpq.keeps⟩
  pending i c hki hi := hpq.old i c (h.pending i c hki hi)
  added := by
    intro i c hi hc
    -- A name behind the source was added by these searches or before them.
    by_cases hip : p.size ≤ i
    · exact hpq.new i c hip hc
    · have hc' := getElem?_of_lt hpq.old (Nat.lt_of_not_le hip) hc
      obtain ⟨hname, honly⟩ := h.added i c hi hc'
      exact ⟨hname, hpq.only hc' honly⟩

/-- An entry that stays takes the renaming one slot further. -/
theorem skip {c : Constant} (h : s.Halfway methods k p) (hc : s.source.slots[k]? = some c)
    (hbecomes : s.Becomes methods p c c) : s.Halfway methods (k + 1) p where
  coherent := h.coherent
  done := by
    intro i d hik hi
    rcases Nat.lt_succ_iff_lt_or_eq.1 hik with hlt | rfl
    · exact h.done i d hlt hi
    · obtain rfl : c = d := Option.some.inj (hc.symm.trans hi)
      exact ⟨c, h.pending i c (Nat.le_refl _) hc, hbecomes⟩
  pending i d hki hi := h.pending i d (Nat.le_of_succ_le hki) hi
  added := h.added

/-- An entry that is replaced takes the renaming one slot further. -/
theorem replace {i : UInt16} {c new : Constant} (h : s.Halfway methods i.toNat p)
    (hc : s.source.get? i = some c) (hpointer : c.isPointer)
    (hbecomes : s.Becomes methods p c new) :
    s.Halfway methods (i.toNat + 1) (p.set i new) := by
  have hold : p.get? i = some c := h.pending _ c (Nat.le_refl _) hc
  have hnew : new.isPointer := by rw [hbecomes.isPointer_eq]; exact hpointer
  have hother : ∀ j : Nat, j ≠ i.toNat → (p.set i new).slots[j]? = p.slots[j]? := by
    intro j hj
    rw [getElem?_set hold, if_neg (Ne.symm hj)]
  -- The slot that changes held a pointer, so no name goes.
  have hkeeps : p.Keeps (p.set i new) := by
    intro j d hd hj
    rw [hother j, hj]
    rintro rfl
    obtain rfl : c = d := Option.some.inj (hold.symm.trans hj)
    rw [hpointer] at hd
    cases hd
  refine ⟨h.coherent.set hold hpointer hnew, ?_, ?_, ?_⟩
  -- Done: the slots before, and now this one.
  · intro j d hji hj
    rcases Nat.lt_succ_iff_lt_or_eq.1 hji with hlt | rfl
    · obtain ⟨d', hd', hbecomes'⟩ := h.done j d hlt hj
      exact ⟨d', by rw [hother j (Nat.ne_of_lt hlt), hd'], hbecomes'.mono hkeeps⟩
    · obtain rfl : c = d := Option.some.inj (hc.symm.trans hj)
      exact ⟨new, by rw [getElem?_set hold, if_pos rfl], hbecomes.mono hkeeps⟩
  -- Pending: nothing behind the slot has changed.
  · intro j d hij hj
    rw [hother j (Nat.ne_of_gt hij)]
    exact h.pending j d (Nat.le_of_succ_le hij) hj
  -- Added: a name still stands in one slot, since what came in is a pointer.
  · intro j d hj hd
    have hij : i.toNat < j := Nat.lt_of_lt_of_le (lt_size_of_getElem? hc) hj
    rw [hother j (Nat.ne_of_gt hij)] at hd
    obtain ⟨hname, honly⟩ := h.added j d hj hd
    refine ⟨hname, fun l hl => ?_⟩
    by_cases hli : l = i.toNat
    · subst hli
      rw [getElem?_set hold, if_pos rfl, Option.some.injEq] at hl
      subst hl
      rw [Constant.isPointer_eq_false_of_isName hname] at hnew
      cases hnew
    · exact honly l (by rw [← hother l hli, hl])

end Halfway

/-- Nothing is reached before the first entry, slot 0 apart. -/
theorem halfway_source (hs : s.source.Coherent) : s.Halfway methods 1 s.source where
  coherent := hs
  done := by
    intro i c hi hc
    obtain rfl : i = 0 := Nat.lt_one_iff.1 hi
    obtain rfl : Constant.unusable = c := Option.some.inj (hs.first.symm.trans hc)
    exact ⟨.unusable, hc, .stays rfl⟩
  pending _ _ _ hi := hi
  added i c hi hc := absurd (lt_size_of_getElem? hc) (Nat.not_lt.2 hi)

/-- What holds before the first entry and is kept by each entry, be it replaced or not, holds once
the entries from `k` on are gone through. -/
private theorem forM_induction {motive : Nat → Pool → Prop}
    (hstay : ∀ k c u v, s.source.slots[k]? = some c → motive k u →
      s.mapConstant methods k.toUInt16 c u = .ok none v → motive (k + 1) v)
    (hset : ∀ k c new u v, s.source.slots[k]? = some c → motive k u →
      s.mapConstant methods k.toUInt16 c u = .ok (some new) v →
      motive (k + 1) (v.set k.toUInt16 new))
    {k : Nat} {entries : List (Constant × Nat)}
    (hentries : entries = s.source.slots.toList.zipIdx.drop k) (hp : motive k p)
    (h : (entries.forM fun (constant, i) => do
      match ← s.mapConstant methods i.toUInt16 constant with
      | some new => Pool.setM i.toUInt16 new
      | none => pure ()) p = .ok () q) :
    ∃ k', s.source.size ≤ k' ∧ motive k' q := by
  induction entries generalizing k p with
  | nil =>
    obtain ⟨-, rfl⟩ := EStateM.pure_eq_ok.1 h
    have hk := List.drop_eq_nil_iff.1 hentries.symm
    exact ⟨k, by simpa [Pool.size] using hk, hp⟩
  | cons entry rest ih =>
    -- The entry at hand is that of slot `k`.
    have hentry : s.source.slots.toList.zipIdx[k]? = some entry := by
      rw [← Nat.add_zero k, ← List.getElem?_drop, ← hentries]
      rfl
    rw [List.getElem?_zipIdx, Array.getElem?_toList, Nat.zero_add] at hentry
    obtain ⟨c, hc, rfl⟩ := Option.map_eq_some_iff.1 hentry
    have hrest : rest = s.source.slots.toList.zipIdx.drop (k + 1) := by
      rw [← List.drop_drop, ← hentries]
      rfl
    rw [List.forM_eq_forM, List.forM_cons] at h
    simp only [EStateM.bind_eq_ok] at h
    obtain ⟨⟨⟩, p₂, ⟨r, p₁, hr, hput⟩, hloop⟩ := h
    refine ih hrest ?_ hloop
    cases r with
    | none =>
      obtain ⟨-, rfl⟩ := EStateM.pure_eq_ok.1 hput
      exact hstay k c p p₁ hc hp hr
    | some new =>
      obtain ⟨-, rfl⟩ := EStateM.Result.ok.inj hput
      exact hset k c new p p₁ hc hp hr

/-- Renaming in the pool goes from slot 1 to the end of the source, entry by entry. -/
theorem mapPool_induction {motive : Nat → Pool → Prop} (hstart : motive 1 p)
    (hstay : ∀ k c u v, s.source.slots[k]? = some c → motive k u →
      s.mapConstant methods k.toUInt16 c u = .ok none v → motive (k + 1) v)
    (hset : ∀ k c new u v, s.source.slots[k]? = some c → motive k u →
      s.mapConstant methods k.toUInt16 c u = .ok (some new) v →
      motive (k + 1) (v.set k.toUInt16 new))
    (h : s.mapPool methods p = .ok () q) : ∃ k, s.source.size ≤ k ∧ motive k q :=
  forM_induction hstay hset rfl hstart h

/-- What becomes of all entries of the source. -/
theorem mapPool_ok (hs : s.source.Coherent) (h : s.mapPool methods s.source = .ok () q) :
    ∃ k, s.source.size ≤ k ∧ s.Halfway methods k q := by
  refine mapPool_induction (halfway_source hs) ?stay ?set h
  case stay =>
    intro k c u v hc hu hr
    have hget : s.source.get? k.toUInt16 = some c := get?_toUInt16 hs.size_le hc
    obtain ⟨hv, hext, hbecomes, -⟩ := hu.ready.mapConstant hget hr
    exact (hu.of_extends hv hext).skip hc hbecomes
  case set =>
    intro k c new u v hc hu hr
    -- This is where a pool with more slots than indices goes wrong: `k` would be cut to 16 bits.
    have hk : k.toUInt16.toNat = k :=
      toNat_toUInt16_of_lt (Nat.lt_of_lt_of_le (lt_size_of_getElem? hc) hs.size_le)
    have hget : s.source.get? k.toUInt16 = some c := get?_toUInt16 hs.size_le hc
    -- First the searches, which undo nothing, then the entry itself.
    obtain ⟨hv, hext, hbecomes, hpointer⟩ := hu.ready.mapConstant hget hr
    have hhalf := hu.of_extends hv hext
    rw [← hk] at hhalf
    have hnext := hhalf.replace hget (hpointer rfl) hbecomes
    rwa [hk] at hnext

/-- Renaming in the pool never shortens it, coherent or not. -/
theorem size_le_mapPool (h : s.mapPool methods p = .ok () q) : p.size ≤ q.size := by
  refine (mapPool_induction (motive := fun _ u => p.size ≤ u.size)
    (Nat.le_refl _) ?stay ?set h).elim fun _ hend => hend.2
  case stay =>
    intro k c u v _ hu hr
    exact Nat.le_trans hu (onlyInterns_mapConstant s methods _ _ _ _ _ hr).size_le
  case set =>
    intro k c new u v _ hu hr
    rw [size_set]
    exact Nat.le_trans hu (onlyInterns_mapConstant s methods _ _ _ _ _ hr).size_le

end Scope

end Relabel
