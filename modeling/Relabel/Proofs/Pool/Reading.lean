import Relabel.Proofs.Pool.Interning

/-!
# Reading a pool that changes

Texts, and names with their descriptors, are never replaced, so what they read as stays whatever
else is done to the pool. What points at them may be pointed elsewhere: `Coherent.set` says that
this keeps a pool coherent.

## Main results

- `Pool.Keeps`: every entry that is no pointer stays; `Pool.Keeps.utf8`, `Pool.Keeps.nameAndType`:
  texts, and names with their descriptors, read as before.
- `Pool.Coherent.internText`, `Pool.Coherent.internNameAndType`: an index handed out reads as
  what was asked for.
- `Pool.Coherent.set`: replacing a pointer by another keeps a pool coherent.
-/

namespace Relabel.Pool

/-! ### When reading succeeds -/

/-- The name of a class is read where its slot points to a name. -/
theorem className_eq_ok {p : Pool} {i : UInt16} {name : String} :
    p.className i = .ok name ↔ ∃ n, p.get? i = some (.ofClass n) ∧ p.utf8 n = .ok name := by
  unfold className
  split
  · next n hn => simp [hn]
  · next hn =>
    refine ⟨fun h => (by cases h), ?_⟩
    rintro ⟨n, hget, -⟩
    exact absurd hget (hn n)

/-- A name and a type are read where the slot points to both. -/
theorem nameAndType_eq_ok {p : Pool} {i : UInt16} {name desc : String} :
    p.nameAndType i = .ok (name, desc) ↔
      ∃ n d, p.get? i = some (.nameAndType n d) ∧ p.utf8 n = .ok name ∧ p.utf8 d = .ok desc := by
  unfold nameAndType
  split
  · next n d hget =>
    simp only [Except.bind_eq_ok, Except.pure_eq_ok, hget, Option.some.injEq,
      Constant.nameAndType.injEq, Prod.mk.injEq]
    constructor
    · rintro ⟨name', hn, desc', hd, rfl, rfl⟩
      exact ⟨n, d, ⟨rfl, rfl⟩, hn, hd⟩
    · rintro ⟨_, _, ⟨rfl, rfl⟩, hn, hd⟩
      exact ⟨name, hn, desc, hd, rfl, rfl⟩
  · next hget =>
    refine ⟨fun h => (by cases h), ?_⟩
    rintro ⟨n, d, hget', -⟩
    exact absurd hget' (hget n d)

/-- A member is read where its slot points to a class and to a name and type. -/
theorem memberReference_eq_ok {p : Pool} {i : UInt16} {ref : MemberReference} :
    p.memberReference i = .ok ref ↔
      ∃ owner names, p.get? i = some (.member ref.kind owner names) ∧
        p.nameAndType names = .ok (ref.name, ref.desc) ∧ p.className owner = .ok ref.owner := by
  unfold memberReference
  split
  · next kind owner names hget =>
    simp only [Except.bind_eq_ok, Except.pure_eq_ok, hget, Option.some.injEq,
      Constant.member.injEq]
    constructor
    · rintro ⟨⟨name, desc⟩, hnames, ownerName, howner, rfl⟩
      exact ⟨owner, names, ⟨rfl, rfl, rfl⟩, hnames, howner⟩
    · rintro ⟨_, _, ⟨rfl, rfl, rfl⟩, hnames, howner⟩
      exact ⟨_, hnames, _, howner, rfl⟩
  · next hget =>
    refine ⟨fun h => (by cases h), ?_⟩
    rintro ⟨owner, names, hget', -⟩
    exact absurd hget' (hget _ _ _)

/-! ### What stays -/

/-- Every entry of `p` that is no pointer is in the same slot of `q`. -/
def Keeps (p q : Pool) : Prop :=
  ∀ (i : Nat) (c : Constant), c.isPointer = false → p.slots[i]? = some c → q.slots[i]? = some c

/-- A pool that is extended keeps what it has. -/
theorem Extends.keeps {p q : Pool} (h : p.Extends q) : p.Keeps q :=
  fun i c _ hc => h.old i c hc

namespace Keeps

theorem trans {p q r : Pool} (h : p.Keeps q) (h' : q.Keeps r) : p.Keeps r :=
  fun i c hc hi => h' i c hc (h i c hc hi)

/-- A text reads as before. -/
theorem utf8 {p q : Pool} (h : p.Keeps q) {i : UInt16} {text : String}
    (hi : p.utf8 i = .ok text) : q.utf8 i = .ok text := by
  unfold Pool.utf8 at hi ⊢
  split at hi
  · next t ht => rw [show q.get? i = _ from h _ _ rfl ht]; exact hi
  · next t raw ht => rw [show q.get? i = _ from h _ _ rfl ht]; exact hi
  · cases hi

/-- A name with its descriptor reads as before. -/
theorem nameAndType {p q : Pool} (h : p.Keeps q) {i : UInt16} {names : String × String}
    (hi : p.nameAndType i = .ok names) : q.nameAndType i = .ok names := by
  obtain ⟨n, d, hget, hn, hd⟩ := nameAndType_eq_ok.1 hi
  exact nameAndType_eq_ok.2 ⟨n, d, h _ _ rfl hget, h.utf8 hn, h.utf8 hd⟩

end Keeps

/-! ### Reading what was searched for -/

/-- The text of a slot is read from it. -/
theorem utf8_of_get? {p : Pool} {i : UInt16} {text : String} (h : p.get? i = some (.utf8 text)) :
    p.utf8 i = .ok text := by
  simp [utf8, h]

/-- The index of a text reads as the text. -/
theorem Coherent.internText {text : String} {p q : Pool} {i : UInt16} (hp : p.Coherent)
    (h : Pool.internText text p = .ok i q) :
    q.Coherent ∧ p.Extends q ∧ q.utf8 i = .ok text := by
  obtain ⟨hq, hext, hget⟩ := hp.intern (show (Constant.ofKey (.utf8 text)).isName from rfl) h
  exact ⟨hq, hext, utf8_of_get? hget⟩

/-- The index of a name and descriptor reads as the two. -/
theorem Coherent.internNameAndType {name desc : String} {p q : Pool} {i : UInt16}
    (hp : p.Coherent) (h : Pool.internNameAndType name desc p = .ok i q) :
    q.Coherent ∧ p.Extends q ∧ q.nameAndType i = .ok (name, desc) := by
  simp only [Pool.internNameAndType, EStateM.bind_eq_ok] at h
  obtain ⟨n, p₁, hn, d, p₂, hd, hnames⟩ := h
  obtain ⟨hp₁, hext₁, hname⟩ := hp.internText hn
  obtain ⟨hp₂, hext₂, hdesc⟩ := hp₁.internText hd
  obtain ⟨hq, hext₃, hget⟩ :=
    hp₂.intern (show (Constant.ofKey (.nameAndType n d)).isName from rfl) hnames
  refine ⟨hq, (hext₁.trans hext₂).trans hext₃, ?_⟩
  exact nameAndType_eq_ok.2
    ⟨n, d, hget, (hext₂.trans hext₃).keeps.utf8 hname, hext₃.keeps.utf8 hdesc⟩

/-! ### Replacing pointers -/

/-- A pool with the entry of a slot replaced. -/
theorem set_eq {p : Pool} {i : UInt16} {old : Constant} (h : p.get? i = some old)
    (new : Constant) :
    p.set i new = { slots := p.slots.setIfInBounds i.toNat new
                    index := noteKey (forgetKey p.index old i) new i } := by
  unfold set
  rw [show p.slots[i.toNat]? = some old from h]

theorem getElem?_set {p : Pool} {i : UInt16} {old new : Constant} (h : p.get? i = some old)
    (j : Nat) : (p.set i new).slots[j]? = if i.toNat = j then some new else p.slots[j]? := by
  have hlt : i.toNat < p.slots.size := lt_size_of_getElem? h
  rw [set_eq h, Array.getElem?_setIfInBounds, if_pos hlt]

/-- Setting a slot keeps the number of slots. -/
@[simp]
theorem size_set (p : Pool) (i : UInt16) (new : Constant) : (p.set i new).size = p.size := by
  unfold set
  split
  · simp [size]
  · rfl

/-- Forgetting a pointer forgets no name. -/
private theorem mem_forgetKey {p : Pool} (hp : p.Coherent) {i : UInt16} {old : Constant}
    (hpointer : old.isPointer) {index : Std.HashMap SearchKey UInt16}
    (hindex : index ∈ forgetKey p.index old i) {key : SearchKey} {j : Nat}
    (hname : (Constant.ofKey key).isName) (hj : p.slots[j]? = some (.ofKey key)) :
    key ∈ index := by
  cases hkey : old.key? with
  | none =>
    simp only [forgetKey, hkey] at hindex
    exact hp.complete index hindex key j hname hj
  | some oldKey =>
    simp only [forgetKey, hkey, Option.mem_def, Option.map_eq_some_iff] at hindex
    obtain ⟨before, hbefore, rfl⟩ := hindex
    have hmem := hp.complete before hbefore key j hname hj
    split
    · refine Std.HashMap.mem_erase.2 ⟨?_, hmem⟩
      -- The key that goes is that of a pointer.
      refine beq_false_of_ne fun heq => ?_
      subst heq
      rw [Constant.key?_eq_some_iff.1 hkey, Constant.isPointer_eq_false_of_isName hname] at hpointer
      cases hpointer
    · exact hmem

/-- Replacing an entry keeps the index leading to entries with the key asked for. -/
theorem Sound.set {p : Pool} (hp : p.Sound) {i : UInt16} {old new : Constant}
    (hold : p.get? i = some old) : (p.set i new).Sound := by
  intro index hindex key j hj
  rw [get?, getElem?_set hold]
  rw [set_eq hold] at hindex
  rcases getElem?_of_noteKey hindex hj with ⟨rfl, rfl⟩ | ⟨between, hbetween, hj'⟩
  · rw [if_pos rfl]
  · obtain ⟨⟨before, hbefore, hj''⟩, hne⟩ := getElem?_of_forgetKey hbetween hj'
    have hget := hp before hbefore key j hj''
    -- The index does not lead to the slot replaced by the key that this slot had.
    have hother : i.toNat ≠ j.toNat := fun heq => by
      obtain rfl := UInt16.toNat_inj.1 heq
      exact hne (Option.some.inj (hold.symm.trans hget)) rfl
    rw [if_neg hother]
    exact hget

/-- Replacing a pointer by another keeps a pool coherent. -/
theorem Coherent.set {p : Pool} (hp : p.Coherent) {i : UInt16} {old new : Constant}
    (hold : p.get? i = some old) (hpointer : old.isPointer) (hpointer' : new.isPointer) :
    (p.set i new).Coherent where
  size_le := by
    rw [size_set]
    exact hp.size_le
  first := by
    rw [getElem?_set hold, if_neg, hp.first]
    intro hi
    have hget : p.slots[0]? = some old := hi ▸ hold
    rw [hp.first, Option.some.injEq] at hget
    subst hget
    cases hpointer
  sound := Sound.set hp.sound hold
  complete := by
    intro index hindex key j hname hj
    rw [getElem?_set hold] at hj
    split at hj
    -- The slot that was replaced holds a pointer, and so no name.
    · obtain rfl := Option.some.inj hj
      rw [Constant.isPointer_eq_false_of_isName hname] at hpointer'
      cases hpointer'
    · rw [set_eq hold] at hindex
      cases hkey : new.key? with
      | none =>
        simp only [noteKey, hkey] at hindex
        exact mem_forgetKey hp hpointer hindex hname hj
      | some newKey =>
        simp only [noteKey, hkey, Option.mem_def, Option.map_eq_some_iff] at hindex
        obtain ⟨before, hbefore, rfl⟩ := hindex
        have hmem := mem_forgetKey hp hpointer hbefore hname hj
        exact Std.HashMap.mem_insertIfNew.2 (.inr hmem)

end Relabel.Pool
