import Relabel.Proofs.ClassFile.Decoding
import Relabel.Proofs.Pool.Reading

/-!
# Calls to a pool

Whatever is asked of a pool changes it in three ways only: its index is built, an entry is appended,
or the entry of a slot is replaced. The first two let a pool grow and leave every entry where it is.
`Call.after_cases` says so once for all calls, and what holds of the pools that come from a fresh
one by any calls follows by induction over them.

An index has 16 bits. A pool that was read may have more slots than that, and then the index leads
to the number of a slot modulo 65536.

## Main results

- `Call.after_cases`: what a call does to a pool.
- `Pool.Indexed.afterCalls`, `Pool.size_afterCalls_le`: the index and the size after any calls.
- `Pool.Searchable.reads`: an index handed out reads as what was asked for.
- `Pool.reads_of_calls`: all of it for the pools that come from a fresh one by calls.
-/

namespace Relabel

namespace Pool

variable {p q r : Pool} {c : Constant} {i : UInt16} {key : SearchKey}

/-! ### Growth -/

theorem size_lt_of_push (h : push c p = .ok i q) : p.size < q.size := by
  obtain ⟨-, -, rfl⟩ := push_eq_ok.1 h
  simp only [size, Array.size_append, List.size_toArray, Constant.length_filling]
  split <;> omega

/-- A step by which a pool grows: its index is built, or an entry is appended. -/
inductive GrowthStep : Pool → Pool → Prop
  | build (p : Pool) : GrowthStep p p.withIndex
  | append {p q : Pool} {c : Constant} {i : UInt16} (h : push c p = .ok i q) : GrowthStep p q

/-- Any number of steps by which a pool grows. -/
def Grows : Pool → Pool → Prop :=
  Relation.ReflTransGen GrowthStep

/-- Where a pool grows by a step, its entries stay in their slots. -/
theorem GrowthStep.old (h : GrowthStep p q) {j : Nat} (hj : p.slots[j]? = some c) :
    q.slots[j]? = some c := by
  cases h with
  | build => exact hj
  | append h =>
    obtain ⟨-, -, rfl⟩ := push_eq_ok.1 h
    rw [Array.getElem?_append_left (lt_size_of_getElem? hj), hj]

/-- A step never takes a pool past 65535 slots. -/
theorem GrowthStep.size_le (h : GrowthStep p q) : q.size ≤ max p.size 65535 := by
  cases h with
  | build => exact Nat.le_max_left ..
  | append h =>
    obtain ⟨hroom, -, rfl⟩ := push_eq_ok.1 h
    refine Nat.le_trans ?_ (Nat.le_max_right ..)
    simpa [size] using hroom

namespace Grows

theorem refl (p : Pool) : p.Grows p :=
  Relation.ReflTransGen.refl

/-- One step is growth. -/
theorem single (h : GrowthStep p q) : p.Grows q :=
  Relation.ReflTransGen.single h

theorem trans (h : p.Grows q) (h' : q.Grows r) : p.Grows r :=
  Relation.ReflTransGen.trans h h'

/-- What every step by which a pool grows preserves holds of the pool it grows to. -/
theorem preserves {P : Pool → Prop} (hstep : ∀ p q, GrowthStep p q → P p → P q) (h : p.Grows q)
    (hp : P p) : P q := by
  induction h with
  | refl => exact hp
  | tail _ hlast ih => exact hstep _ _ hlast ih

/-- Every entry stays in its slot. -/
theorem old (h : p.Grows q) {j : Nat} (hj : p.slots[j]? = some c) : q.slots[j]? = some c :=
  h.preserves (P := fun r => r.slots[j]? = some c) (fun _ _ hstep => hstep.old) hj

/-- A pool that grows does not come to have more than 65535 slots. -/
theorem size_le (h : p.Grows q) : q.size ≤ max p.size 65535 := by
  refine h.preserves (P := fun r => r.size ≤ max p.size 65535) (fun _ _ hstep hle => ?_)
    (Nat.le_max_left ..)
  exact Nat.le_trans hstep.size_le (Nat.max_le.2 ⟨hle, Nat.le_max_right ..⟩)

theorem size_le_of_le (h : p.Grows q) (hsize : p.size ≤ 65536) : q.size ≤ 65536 :=
  Nat.le_trans h.size_le (Nat.max_le.2 ⟨hsize, by decide⟩)

/-- What is read as a name stays readable as that name. -/
theorem keeps (h : p.Grows q) : p.Keeps q :=
  fun _ _ _ hj => h.old hj

/-- The name of a class is still read. -/
theorem className (h : p.Grows q) {name : String} (hi : p.className i = .ok name) :
    q.className i = .ok name := by
  obtain ⟨n, hget, hn⟩ := className_eq_ok.1 hi
  exact className_eq_ok.2 ⟨n, h.old hget, h.keeps.utf8 hn⟩

end Grows

/-! ### What a call leaves -/

/-- The pool that a change leaves, whether it succeeds or fails. -/
def leftBy {α : Type} (act : PoolM α) (p : Pool) : Pool :=
  match act p with
  | .ok _ q => q
  | .error _ q => q

/-- A change that succeeds leaves the pool it gives. -/
theorem leftBy_of_eq_ok {α : Type} {act : PoolM α} {a : α} (h : act p = .ok a q) :
    leftBy act p = q := by
  rw [leftBy, h]

/-- A change that only lets a pool grow, also where it fails. -/
def OnlyGrows {α : Type} (act : PoolM α) : Prop :=
  ∀ p : Pool, p.Grows (leftBy act p)

namespace OnlyGrows

variable {α β : Type} {act : PoolM α}

/-- The pool that such a change gives has grown. -/
theorem of_eq_ok (h : OnlyGrows act) {a : α} (hrun : act p = .ok a q) : p.Grows q :=
  leftBy_of_eq_ok hrun ▸ h p

/-- Growth goes on from the first change to the second. -/
theorem bind {next : α → PoolM β} (h : OnlyGrows act) (h' : ∀ a, OnlyGrows (next a)) :
    OnlyGrows (act >>= next) := by
  intro p
  have hact := h p
  show p.Grows (leftBy (EStateM.bind act next) p)
  unfold leftBy EStateM.bind at *
  -- The second change is made only where the first succeeds.
  cases hrun : act p with
  | ok a q =>
    rw [hrun] at hact
    exact hact.trans (h' a q)
  | error e q =>
    rw [hrun] at hact
    exact hact

/-- A push appends an entry, or leaves a full pool alone. -/
theorem push (c : Constant) : OnlyGrows (Pool.push c) := by
  intro p
  have hrun := push_eq c p
  split at hrun
  · exact leftBy_of_eq_ok hrun ▸ .single (.append hrun)
  -- A pool that is full is left as it is.
  · rw [leftBy, hrun]
    exact .refl p

/-- A search builds the index first, and pushes what it does not find. -/
theorem intern (key : SearchKey) (c : Constant) : OnlyGrows (Pool.intern key c) := by
  intro p
  have hbuild : p.Grows p.withIndex := .single (.build p)
  rw [leftBy, intern_eq]
  split
  · next hrun =>
    split at hrun
    · obtain ⟨-, rfl⟩ := EStateM.Result.ok.inj hrun
      exact hbuild
    · exact hbuild.trans ((push c).of_eq_ok hrun)
  -- The push may fail, but by then the index is built.
  · next hrun =>
    split at hrun
    · cases hrun
    · have hleft := push c p.withIndex
      rw [leftBy, hrun] at hleft
      exact hbuild.trans hleft

/-- A search for a text lets the pool grow. -/
theorem internText (text : String) : OnlyGrows (Pool.internText text) :=
  intern _ _

/-- So does one for a class, which searches for its name first. -/
theorem internClass (name : String) : OnlyGrows (Pool.internClass name) :=
  (internText name).bind fun _ => intern _ _

/-- So does one for a name and type, which searches for both texts first. -/
theorem internNameAndType (name desc : String) : OnlyGrows (Pool.internNameAndType name desc) :=
  (internText name).bind fun _ => (internText desc).bind fun _ => intern _ _

/-- So does one for a member, which searches for its owner and its names first. -/
theorem internMember (ref : MemberReference) : OnlyGrows (Pool.internMember ref) :=
  (internClass ref.owner).bind fun _ =>
    (internNameAndType ref.name ref.desc).bind fun _ => push _

end OnlyGrows

/-! ### Calls -/

/-- What is asked of a pool: to append an entry, to replace that of a slot, or for the index of a
text, a class, a name with its descriptor or a new member reference. -/
inductive Call where
  | push (constant : Constant)
  | set (i : UInt16) (constant : Constant)
  | internText (text : String)
  | internClass (name : String)
  | internNameAndType (name desc : String)
  | internMember (ref : MemberReference)

namespace Call

/-- Makes a call, which gives the index of an entry. -/
def run : Call → PoolM UInt16
  | .push c => Pool.push c
  | .set i c => do
    setM i c
    return i
  | .internText text => Pool.internText text
  | .internClass name => Pool.internClass name
  | .internNameAndType name desc => Pool.internNameAndType name desc
  | .internMember ref => Pool.internMember ref

/-- Whether a call replaces the entry of this slot. -/
def Replaces (j : Nat) : Call → Prop
  | .set i _ => i.toNat = j
  | _ => False

/-- The entry at an index is what the call asked for. -/
def Reads (p : Pool) (i : UInt16) : Call → Prop
  | .push c => p.get? i = some c
  | .set j c => i = j ∧ (j.toNat < p.size → p.get? i = some c)
  | .internText text => p.utf8 i = .ok text
  | .internClass name => p.className i = .ok name
  | .internNameAndType name desc => p.nameAndType i = .ok (name, desc)
  | .internMember ref => p.memberReference i = .ok ref

/-- The pool after a call. -/
def after (call : Call) (p : Pool) : Pool :=
  leftBy call.run p

/-- A call lets a pool grow, or replaces the entry of a slot that the pool has. -/
theorem after_cases (call : Call) (p : Pool) :
    p.Grows (call.after p) ∨
      ∃ i old new, call = .set i new ∧ p.get? i = some old ∧ call.after p = p.set i new := by
  -- Only putting a new entry into a slot that is there replaces anything.
  cases call with
  | push c => exact .inl (OnlyGrows.push c p)
  | set i new =>
    cases hget : p.get? i with
    | none =>
      have hsame : p.set i new = p := by
        unfold Pool.set
        rw [show p.slots[i.toNat]? = none from hget]
      exact .inl (show p.Grows (p.set i new) by rw [hsame]; exact .refl p)
    | some old => exact .inr ⟨i, old, new, rfl, hget, rfl⟩
  | internText text => exact .inl (OnlyGrows.internText text p)
  | internClass name => exact .inl (OnlyGrows.internClass name p)
  | internNameAndType name desc => exact .inl (OnlyGrows.internNameAndType name desc p)
  | internMember ref => exact .inl (OnlyGrows.internMember ref p)

/-- A call leaves every entry but the one it replaces in its slot. -/
theorem getElem?_after {call : Call} {j : Nat} (hcall : ¬ call.Replaces j)
    (hj : p.slots[j]? = some c) : (call.after p).slots[j]? = some c := by
  rcases call.after_cases p with hgrow | ⟨i, old, new, rfl, hold, hafter⟩
  · exact hgrow.old hj
  · have hother : i.toNat ≠ j := hcall
    rw [hafter, getElem?_set hold, if_neg hother, hj]

/-- A call never takes a pool past 65535 slots. -/
theorem size_after_le (call : Call) (p : Pool) : (call.after p).size ≤ max p.size 65535 := by
  rcases call.after_cases p with hgrow | ⟨i, old, new, -, -, hafter⟩
  · exact hgrow.size_le
  · rw [hafter, size_set]
    exact Nat.le_max_left ..

end Call

/-- The pool after one call after the other, whether they succeed or fail. -/
def afterCalls (p : Pool) (calls : List Call) : Pool :=
  calls.foldl (fun p call => call.after p) p

@[simp]
theorem afterCalls_nil (p : Pool) : p.afterCalls [] = p := rfl

@[simp]
theorem afterCalls_concat (p : Pool) (calls : List Call) (call : Call) :
    p.afterCalls (calls ++ [call]) = call.after (p.afterCalls calls) := by
  simp [afterCalls]

/-- What every call preserves holds after any calls. -/
theorem afterCalls_preserves {P : Pool → Prop} {calls : List Call}
    (hcall : ∀ call ∈ calls, ∀ p, P p → P (call.after p)) (hp : P p) : P (p.afterCalls calls) := by
  induction calls generalizing p with
  | nil => exact hp
  | cons call rest ih =>
    exact ih (fun next hnext => hcall next (List.mem_cons_of_mem _ hnext))
      (hcall call List.mem_cons_self p hp)

/-- However many calls are made, a pool does not come to have more than 65535 slots. -/
theorem size_afterCalls_le (p : Pool) (calls : List Call) :
    (p.afterCalls calls).size ≤ max p.size 65535 := by
  refine afterCalls_preserves (P := fun q => q.size ≤ max p.size 65535) (fun call _ q hle => ?_)
    (Nat.le_max_left ..)
  exact Nat.le_trans (call.size_after_le q) (Nat.max_le.2 ⟨hle, Nat.le_max_right ..⟩)

/-! ### Where the index leads -/

/-- The index of a pool, once it is built, leads to the numbers of slots with the key asked for. -/
def Indexed (p : Pool) : Prop :=
  ∀ index ∈ p.index, ∀ (key : SearchKey) (i : UInt16), index[key]? = some i →
    ∃ j : Nat, j.toUInt16 = i ∧ p.slots[j]? = some (.ofKey key)

/-- Where numbers of slots have 16 bits, they are those of the entries. -/
theorem Indexed.sound (h : p.Indexed) (hsize : p.size ≤ 65536) : p.Sound := by
  intro index hindex key i hi
  obtain ⟨j, rfl, hj⟩ := h index hindex key i hi
  exact get?_toUInt16 hsize hj

/-- A step keeps where the index leads to. -/
theorem Indexed.of_growthStep (h : GrowthStep p q) (hp : p.Indexed) : q.Indexed := by
  cases h with
  | build =>
    -- The index is built from the slots, or was there before.
    intro index hindex key i hi
    obtain rfl := Option.some.inj hindex
    cases hbefore : p.index with
    | none =>
      rw [hbefore] at hi
      obtain ⟨j, -, hj⟩ := exists_slot_of_indexOf hi
      exact ⟨j, hj⟩
    | some old =>
      rw [hbefore] at hi
      exact hp old hbefore key i hi
  | @append _ c _ h =>
    have hstep := GrowthStep.append h
    obtain ⟨-, -, rfl⟩ := push_eq_ok.1 h
    -- What is found is the new entry, or was found before.
    intro index hindex key i hi
    rcases getElem?_of_noteKey hindex hi with ⟨rfl, hj⟩ | ⟨old, hold, hi'⟩
    · exact ⟨p.size, hj, Constant.getElem?_append_filling p.slots _⟩
    · obtain ⟨j, hj, hslot⟩ := hp old hold key i hi'
      exact ⟨j, hj, hstep.old hslot⟩

/-- Putting an entry into a slot keeps where the index leads to. -/
theorem Indexed.set (hp : p.Indexed) {old new : Constant} (hold : p.get? i = some old) :
    (p.set i new).Indexed := by
  intro index hindex key k hk
  rw [set_eq hold] at hindex
  rcases getElem?_of_noteKey hindex hk with ⟨rfl, rfl⟩ | ⟨between, hbetween, hk'⟩
  · exact ⟨i.toNat, by simp, by rw [getElem?_set hold, if_pos rfl]⟩
  · obtain ⟨⟨before, hbefore, hk''⟩, hne⟩ := getElem?_of_forgetKey hbetween hk'
    obtain ⟨j, rfl, hj⟩ := hp before hbefore key k hk''
    refine ⟨j, rfl, ?_⟩
    -- The index does not lead to the slot replaced by the key that this slot had.
    have hother : i.toNat ≠ j := by
      rintro rfl
      have heq : old = .ofKey key := Option.some.inj (hold.symm.trans hj)
      exact hne heq (by simp)
    rw [getElem?_set hold, if_neg hother, hj]

/-- Every call keeps where the index leads to. -/
theorem Indexed.after (hp : p.Indexed) (call : Call) : (call.after p).Indexed := by
  rcases call.after_cases p with hgrow | ⟨i, old, new, -, hold, hafter⟩
  · exact hgrow.preserves (fun _ _ => Indexed.of_growthStep) hp
  · exact hafter ▸ hp.set hold

/-- After any calls the index leads to slots with the key asked for. -/
theorem Indexed.afterCalls (hp : p.Indexed) (calls : List Call) : (p.afterCalls calls).Indexed :=
  afterCalls_preserves (fun call _ _ h => h.after call) hp

/-! ### Reading an index that was handed out -/

namespace Searchable

/-- What is pushed is found under the index that is given. -/
theorem push (hp : p.Searchable) (h : Pool.push c p = .ok i q) :
    q.Searchable ∧ p.Grows q ∧ q.get? i = some c := by
  have hgrow := (OnlyGrows.push c).of_eq_ok h
  obtain ⟨hsound, hget⟩ := hp.sound.push h
  exact ⟨⟨hgrow.size_le_of_le hp.size_le, hsound⟩, hgrow, hget⟩

/-- What is searched for is found under the index that is given. -/
theorem intern (hp : p.Searchable) (key : SearchKey)
    (h : Pool.intern key (.ofKey key) p = .ok i q) :
    q.Searchable ∧ p.Grows q ∧ q.get? i = some (.ofKey key) := by
  have hgrow := (OnlyGrows.intern key (.ofKey key)).of_eq_ok h
  obtain ⟨hsound, hget⟩ := hp.sound.intern hp.size_le h
  exact ⟨⟨hgrow.size_le_of_le hp.size_le, hsound⟩, hgrow, hget⟩

/-- A text that is searched for is read under the index that is given. -/
theorem internText {text : String} (hp : p.Searchable) (h : Pool.internText text p = .ok i q) :
    q.Searchable ∧ p.Grows q ∧ q.utf8 i = .ok text := by
  obtain ⟨hq, hgrow, hget⟩ := hp.intern (.utf8 text) h
  exact ⟨hq, hgrow, utf8_of_get? hget⟩

/-- A class that is searched for is read under the index that is given. -/
theorem internClass {name : String} (hp : p.Searchable) (h : Pool.internClass name p = .ok i q) :
    q.Searchable ∧ p.Grows q ∧ q.className i = .ok name := by
  obtain ⟨n, p₁, hname, hclass⟩ := EStateM.bind_eq_ok.1 h
  obtain ⟨hp₁, hgrow, hread⟩ := hp.internText hname
  obtain ⟨hq, hgrow', hget⟩ := hp₁.intern (.ofClass n) hclass
  exact ⟨hq, hgrow.trans hgrow', className_eq_ok.2 ⟨n, hget, hgrow'.keeps.utf8 hread⟩⟩

/-- A name and type that is searched for is read under the index that is given. -/
theorem internNameAndType {name desc : String} (hp : p.Searchable)
    (h : Pool.internNameAndType name desc p = .ok i q) :
    q.Searchable ∧ p.Grows q ∧ q.nameAndType i = .ok (name, desc) := by
  simp only [Pool.internNameAndType, EStateM.bind_eq_ok] at h
  obtain ⟨n, p₁, hname, d, p₂, hdesc, hnames⟩ := h
  obtain ⟨hp₁, hgrow₁, hreadName⟩ := hp.internText hname
  obtain ⟨hp₂, hgrow₂, hreadDesc⟩ := hp₁.internText hdesc
  obtain ⟨hq, hgrow₃, hget⟩ := hp₂.intern (.nameAndType n d) hnames
  refine ⟨hq, (hgrow₁.trans hgrow₂).trans hgrow₃, nameAndType_eq_ok.2 ⟨n, d, hget, ?_, ?_⟩⟩
  · exact (hgrow₂.trans hgrow₃).keeps.utf8 hreadName
  · exact hgrow₃.keeps.utf8 hreadDesc

/-- A member that is searched for is read under the index that is given. -/
theorem internMember {ref : MemberReference} (hp : p.Searchable)
    (h : Pool.internMember ref p = .ok i q) :
    q.Searchable ∧ p.Grows q ∧ q.memberReference i = .ok ref := by
  simp only [Pool.internMember, EStateM.bind_eq_ok] at h
  obtain ⟨owner, p₁, howner, names, p₂, hnames, hmember⟩ := h
  obtain ⟨hp₁, hgrow₁, hreadOwner⟩ := hp.internClass howner
  obtain ⟨hp₂, hgrow₂, hreadNames⟩ := hp₁.internNameAndType hnames
  obtain ⟨hq, hgrow₃, hget⟩ := hp₂.push hmember
  refine ⟨hq, (hgrow₁.trans hgrow₂).trans hgrow₃,
    memberReference_eq_ok.2 ⟨owner, names, hget, ?_, ?_⟩⟩
  -- What the class and the names read as is still so behind the entries that were appended later.
  · exact hgrow₃.keeps.nameAndType hreadNames
  · exact (hgrow₂.trans hgrow₃).className hreadOwner

/-- The index that a call gives reads as what it asked for. -/
theorem reads (hp : p.Searchable) {call : Call} (h : call.run p = .ok i q) : call.Reads q i := by
  cases call with
  | push c => exact (hp.push h).2.2
  | set j new =>
    obtain ⟨rfl, rfl⟩ := EStateM.Result.ok.inj h
    refine ⟨rfl, fun hlt => ?_⟩
    rw [size_set] at hlt
    exact (getElem?_set (Array.getElem?_eq_getElem hlt) j.toNat).trans (if_pos rfl)
  | internText text => exact (hp.internText h).2.2
  | internClass name => exact (hp.internClass h).2.2
  | internNameAndType name desc => exact (hp.internNameAndType h).2.2
  | internMember ref => exact (hp.internMember h).2.2

end Searchable

/-! ### Fresh pools -/

/-- A pool in which nothing was searched for yet: one without entries, or that of a class that was
read. -/
inductive Fresh : Pool → Prop
  | empty : Fresh {}
  | ofClass {data : Bytes} {c : ClassFile} (h : ClassFile.decode data = .ok c) : Fresh c.pool

/-- A fresh pool has no index yet. -/
theorem Fresh.index_eq_none (hp : p.Fresh) : p.index = none := by
  cases hp with
  | empty => rfl
  | ofClass h =>
    obtain ⟨input, hdecoder, -⟩ := ClassFile.decode_ok h
    obtain ⟨input₁, input₂, hpool⟩ := ClassFile.decoder_ok hdecoder
    exact (Pool.decode_ok hpool).1

/-- A fresh pool has its first slot, which holds no entry. -/
theorem Fresh.first (hp : p.Fresh) : p.slots[0]? = some .unusable := by
  cases hp with
  | empty => rfl
  | ofClass h =>
    obtain ⟨input, hdecoder, -⟩ := ClassFile.decode_ok h
    obtain ⟨input₁, input₂, hpool⟩ := ClassFile.decoder_ok hdecoder
    exact (Pool.decode_ok hpool).2

/-- Without an index there is nothing that leads astray. -/
theorem Fresh.indexed (hp : p.Fresh) : p.Indexed := by
  intro index hindex
  rw [hp.index_eq_none] at hindex
  cases hindex

/-- Where the slots of a fresh pool have indices, those of the pool after any calls do, and its
index leads to the entries asked for. -/
theorem Fresh.searchable (hp : p.Fresh) (hsize : p.size ≤ 65536) (calls : List Call) :
    (p.afterCalls calls).Searchable := by
  have hle : (p.afterCalls calls).size ≤ 65536 :=
    Nat.le_trans (size_afterCalls_le p calls) (Nat.max_le.2 ⟨hsize, by decide⟩)
  exact ⟨hle, (hp.indexed.afterCalls calls).sound hle⟩

/-- After any calls to a fresh pool, the index leads to slots with the key asked for, the pool has
no more than 65535 slots unless it had them before, and a further call leaves every entry that it
does not replace where it is. Where all slots have indices of 16 bits, the index leads to entries
with the key asked for, and what a call gives reads as what it asked for. -/
theorem reads_of_calls (hp : p.Fresh) (calls : List Call) :
    (p.afterCalls calls).Indexed ∧ (p.afterCalls calls).size ≤ max p.size 65535 ∧
    (∀ (call : Call) (j : Nat) (c : Constant), ¬ call.Replaces j →
      (p.afterCalls calls).slots[j]? = some c →
      (call.after (p.afterCalls calls)).slots[j]? = some c) ∧
    (p.size ≤ 65536 → (p.afterCalls calls).Sound ∧
      ∀ (call : Call) (i : UInt16) (q : Pool), call.run (p.afterCalls calls) = .ok i q →
        call.Reads q i) := by
  refine ⟨hp.indexed.afterCalls calls, size_afterCalls_le p calls, ?_, fun hsize => ?_⟩
  -- The entries that stay need no searchable pool, what is read of an index does.
  · exact fun call j c hcall hj => call.getElem?_after hcall hj
  · have hsearchable := hp.searchable hsize calls
    exact ⟨hsearchable.sound, fun call i q h => hsearchable.reads h⟩

/-- An unpaired surrogate and two equal texts, of which the one that is found is then replaced by
what the first entry reads as. -/
def twinCalls : List Call :=
  [.push (.lossyUtf8 "\ufffd" [0xed, 0xa0, 0x80]), .push (.utf8 "a"), .push (.utf8 "a"),
    .internText "a", .set 2 (.utf8 "\ufffd")]

/-- The slots before the first search. -/
def twinSlots : Array Constant :=
  #[.unusable, .lossyUtf8 "\ufffd" [0xed, 0xa0, 0x80], .utf8 "a", .utf8 "a"]

theorem getElem?_indexOf_twinSlots : (indexOf twinSlots)[SearchKey.utf8 "a"]? = some 2 := by
  simp [indexOf, twinSlots, Constant.key?, Std.HashMap.getElem_insertIfNew]

/-- The search finds the first of the two texts. -/
theorem afterCalls_twinCalls_take :
    ({} : Pool).afterCalls (twinCalls.take 4) = withIndex { slots := twinSlots } :=
  leftBy_of_eq_ok (intern_of_found (p := { slots := twinSlots }) getElem?_indexOf_twinSlots)

/-- The text that was put into slot 2 is found there, and the surrogate that reads alike is not. -/
theorem reads_of_calls_twins : Fresh {} ∧ ({} : Pool).size ≤ 65536 ∧
    ∃ q, (Call.internText "\ufffd").run (({} : Pool).afterCalls twinCalls) = .ok 2 q ∧
      q.utf8 2 = .ok "\ufffd" := by
  have hafter : ({} : Pool).afterCalls twinCalls =
      (withIndex { slots := twinSlots }).set 2 (.utf8 "\ufffd") := by
    rw [← afterCalls_twinCalls_take]
    exact afterCalls_concat {} (twinCalls.take 4) (.set 2 (.utf8 "\ufffd"))
  -- The slot that is found first holds the old text until it is replaced.
  have hold : (withIndex { slots := twinSlots }).get? 2 = some (.utf8 "a") := rfl
  have hnew : SearchKey.utf8 "\ufffd" ∉ indexOf twinSlots := by
    simp [indexOf, twinSlots, Constant.key?]
  have hfound : ((({} : Pool).afterCalls twinCalls).index.getD
      (indexOf (({} : Pool).afterCalls twinCalls).slots))[SearchKey.utf8 "\ufffd"]? = some 2 := by
    rw [hafter, set_eq hold]
    simp [noteKey, forgetKey, Constant.key?, withIndex, getElem?_indexOf_twinSlots,
      Std.HashMap.getElem_insertIfNew, hnew]
  -- The index that was built knows the new text, since putting it into the slot noted it.
  have hrun : (Call.internText "\ufffd").run (({} : Pool).afterCalls twinCalls) = .ok 2 _ :=
    intern_of_found hfound
  have hsize : ({} : Pool).size ≤ 65536 := by decide
  exact ⟨.empty, hsize, _, hrun, ((reads_of_calls .empty twinCalls).2.2.2 hsize).2 _ 2 _ hrun⟩

end Pool

end Relabel
