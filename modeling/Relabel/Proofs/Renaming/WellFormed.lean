import Relabel.Proofs.ClassFile.RoundTrip
import Relabel.Proofs.Pool.Calls
import Relabel.Proofs.Renaming.Classes

/-!
# Relabeled classes are well formed

A relabeling replaces pointers by pointers and appends names, and neither is wide, free or a text
that is not exact; so slots stay laid out. The constant that names the class is pointed at a text.
This needs no coherent pool, only one whose searches lead to what they ask for. What is relabeled
and written therefore reads back.

## Main results

- `Pool.LaidOut.of_repoints`: what a relabeling does to a pool keeps it laid out.
- `Scope.mapPool_underway`: by induction over the entries, the class keeps a name.
- `ClassFile.roundTrip`: well-formed classes, where they come from and that they read back.
-/

namespace Relabel

namespace Pool

variable {p q r : Pool} {i : UInt16} {c new : Constant}

/-! ### Names behind all entries -/

/-- `q` is `p` with names behind all its entries. -/
structure Appends (p q : Pool) : Prop where
  old : ∀ (i : Nat) (c : Constant), p.slots[i]? = some c → q.slots[i]? = some c
  new : ∀ (i : Nat) (c : Constant), p.size ≤ i → q.slots[i]? = some c → c.isName

/-- The same slots are a pool with nothing appended. -/
theorem Appends.of_slots_eq (h : q.slots = p.slots) : p.Appends q where
  old i c hc := by rw [h, hc]
  new i c hi hc := by
    rw [h] at hc
    exact absurd (lt_size_of_getElem? hc) (Nat.not_lt.2 hi)

/-- What is appended twice is appended. -/
theorem Appends.trans (h : p.Appends q) (h' : q.Appends r) : p.Appends r where
  old i c hc := h'.old i c (h.old i c hc)
  new i c hi hc := by
    by_cases hq : q.size ≤ i
    · exact h'.new i c hq hc
    · exact h.new i c hi (getElem?_of_lt h'.old (Nat.lt_of_not_le hq) hc)

/-- A class keeps its name while names are appended. -/
theorem Appends.className (h : p.Appends q) {name : String} (hi : p.className i = .ok name) :
    q.className i = .ok name := by
  obtain ⟨n, hget, hn⟩ := className_eq_ok.1 hi
  have hkeeps : p.Keeps q := fun j d _ hd => h.old j d hd
  exact className_eq_ok.2 ⟨n, h.old _ _ hget, hkeeps.utf8 hn⟩

/-- A search for a name only appends names. -/
theorem Appends.of_intern {key : SearchKey} (hname : (Constant.ofKey key).isName)
    (h : intern key (.ofKey key) p = .ok i q) : p.Appends q := by
  obtain ⟨index, -, ⟨-, rfl⟩ | ⟨-, hpush⟩⟩ := intern_ok h
  · exact .of_slots_eq rfl
  · obtain ⟨-, -, rfl⟩ := push_ok hname hpush
    refine ⟨fun j c hc => getElem?_slots_push.2 (.inl hc), fun j c hj hc => ?_⟩
    rcases getElem?_slots_push.1 hc with hold | ⟨-, rfl⟩
    · exact absurd (lt_size_of_getElem? hold) (Nat.not_lt.2 hj)
    · exact hname

/-- Interning keeps a pool searchable and appends. -/
theorem Searchable.of_interns (hp : p.Searchable) (h : p.Interns q) :
    q.Searchable ∧ p.Appends q := by
  induction h with
  | refl => exact ⟨hp, .of_slots_eq rfl⟩
  | tail _ hstep ih =>
    obtain ⟨hq, happends⟩ := ih
    obtain ⟨key, i, hname, hrun⟩ := hstep
    exact ⟨(hq.intern key hrun).1, happends.trans (.of_intern hname hrun)⟩

/-- A pool stays searchable while a slot that it has is written. -/
theorem Searchable.set (hp : p.Searchable) (hi : p.get? i = some c) :
    (p.set i new).Searchable where
  size_le := by
    rw [size_set]
    exact hp.size_le
  sound := hp.sound.set hi

/-! ### Pointers in the place of pointers -/

/-- `q` is `p` with some pointers replaced by others and names behind all its entries. -/
structure Repoints (p q : Pool) : Prop where
  old : ∀ (i : Nat) (c : Constant), p.slots[i]? = some c →
    ∃ c', q.slots[i]? = some c' ∧ (c' = c ∨ c.isPointer ∧ c'.isPointer)
  new : ∀ (i : Nat) (c : Constant), p.size ≤ i → q.slots[i]? = some c → c.isName

namespace Repoints

theorem refl (p : Pool) : p.Repoints p where
  old _ c hc := ⟨c, hc, .inl rfl⟩
  new _ _ hi hc := absurd (lt_size_of_getElem? hc) (Nat.not_lt.2 hi)

/-- Repointing keeps all texts. -/
theorem keeps (h : p.Repoints q) : p.Keeps q := by
  intro i c hpointer hc
  obtain ⟨c', hc', rfl | ⟨hpointer', -⟩⟩ := h.old i c hc
  · exact hc'
  · rw [hpointer] at hpointer'
    cases hpointer'

/-- What is neither a pointer nor a name was there before. -/
theorem getElem?_of_fixed (h : p.Repoints q) {i : Nat} (hc : q.slots[i]? = some c)
    (hpointer : c.isPointer = false) (hname : c.isName = false) : p.slots[i]? = some c := by
  by_cases hi : p.size ≤ i
  · rw [h.new i c hi hc] at hname
    cases hname
  · have hget : p.slots[i]? = some _ := Array.getElem?_eq_getElem (Nat.lt_of_not_le hi)
    -- An old slot has its old entry or a pointer, and this one is no pointer.
    obtain ⟨c', hc', hsame⟩ := h.old i _ hget
    obtain rfl := Option.some.inj (hc'.symm.trans hc)
    rcases hsame with hsame | ⟨-, hpointer'⟩
    · rw [hget, hsame]
    · rw [hpointer] at hpointer'
      cases hpointer'

/-- What is appended does not disturb the slots that are repointed. -/
theorem of_appends (h : p.Repoints q) (h' : q.Appends r) : p.Repoints r where
  old i c hc := by
    obtain ⟨c', hc', hsame⟩ := h.old i c hc
    exact ⟨c', h'.old i c' hc', hsame⟩
  new i c hi hc := by
    by_cases hq : q.size ≤ i
    · exact h'.new i c hq hc
    · exact h.new i c hi (getElem?_of_lt h'.old (Nat.lt_of_not_le hq) hc)

/-- A pointer of the old pool can be pointed elsewhere. -/
theorem set (h : p.Repoints q) (hi : p.get? i = some c) (hpointer : c.isPointer)
    (hpointer' : new.isPointer) : p.Repoints (q.set i new) := by
  obtain ⟨d, hd, -⟩ := h.old _ c hi
  refine ⟨fun j e he => ?_, fun j e hj he => ?_⟩
  · rw [getElem?_set hd]
    split
    · next hij =>
      subst hij
      obtain rfl := Option.some.inj (hi.symm.trans he)
      exact ⟨new, rfl, .inr ⟨hpointer, hpointer'⟩⟩
    · exact h.old j e he
  -- The slot that is replaced is an old one, so a new one keeps its entry.
  · have hne : i.toNat ≠ j := Nat.ne_of_lt (Nat.lt_of_lt_of_le (lt_size_of_getElem? hi) hj)
    rw [getElem?_set hd, if_neg hne] at he
    exact h.new j e hj he

end Repoints

/-- A pool that is laid out stays so when it is repointed. -/
theorem LaidOut.of_repoints (hp : LaidOut p.slots) (h : p.Repoints q) : LaidOut q.slots where
  first := h.keeps 0 _ rfl hp.first
  wide i := by
    -- Neither a free slot nor a wide entry is a pointer or a name.
    have hfixed : ∀ {c : Constant}, c.isWide → c.isPointer = false ∧ c.isName = false := by
      intro c hc
      cases c <;> simp_all [Constant.isWide, Constant.isPointer, Constant.isName]
    constructor
    · intro hfree
      obtain ⟨c, hc, hwide⟩ := (hp.wide i).1 (h.getElem?_of_fixed hfree rfl rfl)
      exact ⟨c, h.keeps i c (hfixed hwide).1 hc, hwide⟩
    · rintro ⟨c, hc, hwide⟩
      have hold := h.getElem?_of_fixed hc (hfixed hwide).1 (hfixed hwide).2
      exact h.keeps _ _ rfl ((hp.wide i).2 ⟨c, hold, hwide⟩)
  lossy i text raw hi := hp.lossy i text raw (h.getElem?_of_fixed hi rfl rfl)

end Pool

/-! ### The pool of a class under way -/

namespace Scope

open Pool

variable {s : Scope} {methods : Array BootstrapMethod} {p q : Pool} {this i : UInt16}
  {c new : Constant}

/-- Only pointers are replaced, by pointers, and what takes the place of a class names one. -/
theorem mapConstant_eq_some (hp : p.Searchable)
    (h : s.mapConstant methods i c p = .ok (some new) q) :
    c.isPointer ∧ new.isPointer ∧ ∀ n, c = .ofClass n →
      ∃ n' name, new = .ofClass n' ∧ q.utf8 n' = .ok name := by
  -- Only the constants that point to others are rewritten, so one case for each kind of those.
  cases c with
  | ofClass name =>
    simp only [Scope.mapConstant, EStateM.bind_eq_ok] at h
    obtain ⟨old, _, hold, h⟩ := h
    obtain ⟨-, rfl⟩ := EStateM.ofExcept_eq_ok.1 hold
    cases hnew : s.names.mapReference old with
    | none =>
      rw [hnew] at h
      obtain ⟨hr, -⟩ := EStateM.pure_eq_ok.1 h
      cases hr
    | some name' =>
      simp only [hnew, EStateM.bind_eq_ok, EStateM.pure_eq_ok] at h
      obtain ⟨j, _, hj, hr, rfl⟩ := h
      obtain rfl := Option.some.inj hr
      exact ⟨rfl, rfl, fun _ _ => ⟨j, name', rfl, (hp.internText hj).2.2⟩⟩
  | member kind owner names =>
    simp only [Scope.mapConstant, EStateM.bind_eq_ok, EStateM.pure_eq_ok] at h
    obtain ⟨ref, _, -, j, _, -, hr, -⟩ := h
    obtain ⟨_, -, rfl⟩ := Option.map_eq_some_iff.1 hr
    exact ⟨rfl, rfl, by rintro _ ⟨⟩⟩
  | methodType desc =>
    simp only [Scope.mapConstant, EStateM.bind_eq_ok, EStateM.pure_eq_ok] at h
    obtain ⟨j, _, -, hr, -⟩ := h
    obtain rfl := Option.some.inj hr
    exact ⟨rfl, rfl, by rintro _ ⟨⟩⟩
  | invokeDynamic bootstrap names =>
    simp only [Scope.mapConstant, EStateM.bind_eq_ok, EStateM.pure_eq_ok] at h
    obtain ⟨_, _, -, newName, _, -, j, _, -, hr, -⟩ := h
    obtain ⟨_, -, rfl⟩ := Option.map_eq_some_iff.1 hr
    exact ⟨rfl, rfl, by rintro _ ⟨⟩⟩
  | dynamic bootstrap names =>
    simp only [Scope.mapConstant, EStateM.bind_eq_ok, EStateM.pure_eq_ok] at h
    obtain ⟨_, _, -, j, _, -, hr, -⟩ := h
    obtain ⟨_, -, rfl⟩ := Option.map_eq_some_iff.1 hr
    exact ⟨rfl, rfl, by rintro _ ⟨⟩⟩
  | _ =>
    obtain ⟨hr, -⟩ := EStateM.pure_eq_ok.1 h
    cases hr

/-- A pool on the way from the source, in which the class at `this` has a name. -/
structure Underway (s : Scope) (this : UInt16) (p : Pool) : Prop where
  searchable : p.Searchable
  repoints : s.source.Repoints p
  named : ∃ name, p.className this = .ok name

/-- Interning keeps a pool underway. -/
theorem Underway.of_interns (h : s.Underway this p) (hpq : p.Interns q) : s.Underway this q := by
  obtain ⟨hq, happends⟩ := h.searchable.of_interns hpq
  obtain ⟨name, hname⟩ := h.named
  exact ⟨hq, h.repoints.of_appends happends, name, happends.className hname⟩

/-- One pointer is pointed elsewhere, and the class at `this` at another name. -/
theorem Underway.set (h : s.Underway this p) {n : UInt16}
    (hthis : s.source.get? this = some (.ofClass n)) (hi : s.source.get? i = some c)
    (hpointer : c.isPointer) (hpointer' : new.isPointer)
    (hnamed : ∀ n, c = .ofClass n → ∃ n' name, new = .ofClass n' ∧ p.utf8 n' = .ok name) :
    s.Underway this (p.set i new) := by
  obtain ⟨d, hd, hsame⟩ := h.repoints.old _ c hi
  have hold : p.get? i = some d := hd
  have hdpointer : d.isPointer := by
    rcases hsame with rfl | ⟨-, hd⟩
    · exact hpointer
    · exact hd
  -- Texts are no pointers, so they read as before.
  have hkeeps : p.Keeps (p.set i new) := by
    intro j e he hj
    rw [getElem?_set hold, if_neg, hj]
    rintro rfl
    obtain rfl := Option.some.inj (hold.symm.trans hj)
    rw [hdpointer] at he
    cases he
  refine ⟨h.searchable.set hold, h.repoints.set hi hpointer hpointer', ?_⟩
  by_cases hit : i = this
  · subst hit
    obtain rfl := Option.some.inj (hi.symm.trans hthis)
    obtain ⟨n', name, rfl, hname⟩ := hnamed n rfl
    refine ⟨name, className_eq_ok.2 ⟨n', ?_, hkeeps.utf8 hname⟩⟩
    exact (getElem?_set hold _).trans (if_pos rfl)
  · obtain ⟨name, hname⟩ := h.named
    obtain ⟨n', hget, hn'⟩ := className_eq_ok.1 hname
    refine ⟨name, className_eq_ok.2 ⟨n', ?_, hkeeps.utf8 hn'⟩⟩
    exact (getElem?_set hold _).trans ((if_neg fun heq => hit (UInt16.toNat_inj.1 heq)).trans hget)

/-- Renaming in the pool keeps it under way, entry by entry and so to the end. -/
theorem mapPool_underway (hs : s.source.Searchable) {name : String}
    (hname : s.source.className this = .ok name)
    (h : s.mapPool methods s.source = .ok () q) : s.Underway this q := by
  obtain ⟨n, hthis, -⟩ := className_eq_ok.1 hname
  refine (mapPool_induction (motive := fun _ => s.Underway this)
    ⟨hs, .refl _, name, hname⟩ ?stay ?set h).elim fun _ hend => hend.2
  case stay =>
    intro k c u v _ hu hr
    exact hu.of_interns (onlyInterns_mapConstant s methods _ _ _ _ _ hr)
  case set =>
    intro k c new u v hc hu hr
    -- The number of the slot has 16 bits, so it is this slot that is replaced.
    have hget : s.source.get? k.toUInt16 = some c := get?_toUInt16 hs.size_le hc
    have hv := hu.of_interns (onlyInterns_mapConstant s methods _ _ _ _ _ hr)
    obtain ⟨hpointer, hpointer', hnamed⟩ := mapConstant_eq_some hu.searchable hr
    exact hv.set hthis hget hpointer hpointer' hnamed

end Scope

/-! ### Classes -/

namespace ClassFile

open Pool

variable {names : Renaming} {settings : RelabelSettings} {c c' : ClassFile}

/-- A well-formed class whose slots have indices is well formed after a relabeling. -/
theorem WellFormed.relabel (hc : c.WellFormed) (hpool : c.pool.Searchable)
    (h : c.relabel names settings = .ok c') : c'.WellFormed ∧ c'.pool.Sound := by
  obtain ⟨thisName, methods, d, p, p₁, p₂, p₃, hname, -, hmap, hsteps, hc'⟩ := relabel_ok h
  have hp : (c.scope names settings thisName).Underway c.thisClass p :=
    Scope.mapPool_underway hpool hname hmap
  have hend := hp.of_interns hsteps.interns_all
  obtain ⟨fields, methods', attributes, rfl⟩ := hsteps.header
  refine ⟨⟨hc.laidOut.of_repoints hend.repoints, ?_⟩, hend.searchable.sound⟩
  rw [hc']
  exact hend.named

/-- The class `A` with a wide constant, and a text that is half of a surrogate pair. -/
def mixed : ClassFile :=
  { pool := { slots := #[.unusable, .utf8 "A", .ofClass 1, .long 7, .unusable,
      .lossyUtf8 "\uFFFD" [0xed, 0xa0, 0x80]] }
    access := ⟨0x21⟩
    thisClass := 2
    superClass := 0 }

/-- The binary form of `mixed`. -/
def mixedBytes : Bytes :=
  [0xca, 0xfe, 0xba, 0xbe, 0, 0, 0, 52, 0, 6, 1, 0, 1, 65, 7, 0, 1, 5, 0, 0, 0, 0, 0, 0, 0, 7,
    1, 0, 3, 0xed, 0xa0, 0x80, 0, 0x21, 0, 2, 0, 0, 0, 0, 0, 0, 0, 0, 0, 0]

theorem decode_mixedBytes : decode mixedBytes = .ok mixed := rfl

/-- The slots of `mixed` once it is called `B`. -/
private def mixedSlots : Array Constant :=
  #[.unusable, .utf8 "A", .ofClass 6, .long 7, .unusable, .lossyUtf8 "\uFFFD" [0xed, 0xa0, 0x80],
    .utf8 "B"]

/-- The class constant of `mixed` is pointed at a text behind the others. -/
private theorem exists_relabel_mixed :
    ∃ c' bytes, mixed.relabel toB {} = .ok c' ∧ c'.encode = .ok bytes := by
  -- The new name is not in the pool yet.
  have hnew : (indexOf mixed.pool.slots)[SearchKey.utf8 "B"]? = none := by
    simp [indexOf, mixed, List.zipIdx, Constant.key?]
  obtain ⟨index, hintern⟩ : ∃ index, internText "B" mixed.pool =
      .ok 6 { slots := mixed.pool.slots.push (.utf8 "B"), index } :=
    ⟨_, @intern_of_new (.utf8 "B") rfl mixed.pool hnew (by decide)⟩
  have hclass : (mixed.scope toB {} "A").mapConstant #[] 2 (.ofClass 1) mixed.pool =
      .ok (some (.ofClass 6)) { slots := mixed.pool.slots.push (.utf8 "B"), index } := by
    have hrename : toB.mapReference "A" = some "B" := rfl
    simp only [Scope.mapConstant, scope, EStateM.bind_eq_ok]
    refine ⟨"A", _, rfl, ?_⟩
    simp only [hrename, EStateM.bind_eq_ok]
    exact ⟨6, _, hintern, rfl⟩
  -- The class constant is the only one that changes.
  obtain ⟨index, hpool⟩ : ∃ index, (mixed.scope toB {} "A").mapPool #[] mixed.pool =
      .ok () { slots := mixedSlots, index } := by
    simp only [Scope.mapPool, scope, mixed, List.zipIdx, List.drop_succ_cons, List.drop_zero,
      List.forM_eq_forM, List.forM_cons, List.forM_nil, EStateM.bind_eq_ok]
    exact ⟨_, (), _, ⟨none, _, rfl, rfl⟩, (), _, ⟨_, _, hclass, rfl⟩, (), _, ⟨none, _, rfl, rfl⟩,
      (), _, ⟨none, _, rfl, rfl⟩, (), _, ⟨none, _, rfl, rfl⟩, rfl⟩
  have hbody : (mixed.scope toB {} "A").renameBody mixed { slots := mixedSlots, index } =
      .ok mixed { slots := mixedSlots, index } := by
    simp only [Scope.renameBody, mixed, renameAttributes_empty, List.mapM_toArray, List.mapM_nil,
      EStateM.bind_eq_ok]
    exact ⟨#[], _, rfl, #[], _, rfl, #[], _, rfl, rfl⟩
  exact ⟨_, _, relabel_of_steps rfl rfl hpool hbody, rfl⟩

/-- What is read is well formed, and its pool, which has no index yet, is sound. -/
theorem wellFormed_sound_of_decode {data : Bytes} {c : ClassFile} (h : decode data = .ok c) :
    c.WellFormed ∧ c.pool.Sound := by
  obtain ⟨hc, hindex⟩ := wellFormed_of_decode h
  refine ⟨hc, fun index hsome => ?_⟩
  rw [hindex] at hsome
  cases hsome

/-- A well-formed class that can be written reads back. What is read is well formed, and a
relabeling keeps it so where all slots have indices. Hence whatever is read, relabeled and written
reads back, whether or not they have: only a pool whose slots all have indices can be written. -/
theorem roundTrip (names : Renaming) (settings : RelabelSettings) (data bytes : Bytes)
    (c c' : ClassFile) :
    (c.WellFormed → c.encode = .ok bytes → decode bytes = .ok c.withoutIndex) ∧
    (decode data = .ok c → c.WellFormed ∧ c.pool.Sound) ∧
    (c.WellFormed → c.pool.Sound → c.pool.size ≤ 65536 → c.relabel names settings = .ok c' →
      c'.WellFormed ∧ c'.pool.Sound) ∧
    (decode data = .ok c → c.relabel names settings = .ok c' → c'.encode = .ok bytes →
      decode bytes = .ok c'.withoutIndex) := by
  refine ⟨fun hc h => decode_encode hc h, wellFormed_sound_of_decode,
    fun hc hsound hsize h => hc.relabel ⟨hsize, hsound⟩ h, fun hdecode h hencode => ?_⟩
  obtain ⟨hc, hsound⟩ := wellFormed_sound_of_decode hdecode
  -- A pool that was too long before still is, and could not have been written.
  have hsize : c.pool.size ≤ 65536 := by
    have hencoded := size_lt_of_encode hencode
    have hle := size_le_relabel h
    omega
  exact decode_encode (hc.relabel ⟨hsize, hsound⟩ h).1 hencode

/-- `mixed` reads back, and so does what a relabeling makes of it. -/
theorem roundTrip_mixed :
    mixed.encode = .ok mixedBytes ∧ decode mixedBytes = .ok mixed.withoutIndex ∧
      mixed.WellFormed ∧ mixed.pool.Sound ∧ mixed.pool.size ≤ 65536 ∧
      ∃ c' bytes, mixed.relabel toB {} = .ok c' ∧ c'.WellFormed ∧ c'.pool.Sound ∧
        c'.encode = .ok bytes ∧ decode bytes = .ok c'.withoutIndex := by
  obtain ⟨c', bytes, hc', hbytes⟩ := exists_relabel_mixed
  obtain ⟨hreads, -, -, -⟩ := roundTrip toB {} mixedBytes mixedBytes mixed c'
  obtain ⟨-, hread, hrelabel, hwritten⟩ := roundTrip toB {} mixedBytes bytes mixed c'
  obtain ⟨hmixed, hsound⟩ := hread decode_mixedBytes
  obtain ⟨hc'mixed, hc'sound⟩ := hrelabel hmixed hsound (by decide) hc'
  exact ⟨rfl, hreads hmixed rfl, hmixed, hsound, by decide, c', bytes, hc', hc'mixed, hc'sound,
    hbytes, hwritten decode_mixedBytes hc' hbytes⟩

end ClassFile

end Relabel
