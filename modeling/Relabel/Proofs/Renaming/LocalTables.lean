import Relabel.Proofs.LocalNames.Runs
import Relabel.Proofs.Maps
import Relabel.Proofs.Renaming.Attributes

/-!
# Tables of local variables under new names

A table is renamed in two passes. The first maps the types, entry by entry. The second asks for the
names of all entries at once, and of the parameters that have none from the start of the method; it
gives the entries their new names, appends the parameters, and hands the names given on to the table
of generic types, by range and slot.

## Main results

- `Renaming.slotsOfParameters_eq`: the slots of parameters, long and double values taking two.
- `Scope.Ready.patchTable`: the first pass.
- `Scope.Ready.renameTable`: the second pass over the table of names.
- `TableNamed.entries_eq`, `TableNamed.ranges_eq`, `TableNamed.exists_of_param`: what a table
  becomes, entry by entry.
- `TableNamed.namedAfter`: the table of generic types follows the table of names.
-/

namespace Relabel

variable {p q final : Pool}

/-! ### Reading a table -/

namespace LocalVariable

/-- The name, type and slot of an entry, as a pool reads them. -/
def entry (p : Pool) (v : LocalVariable) : Except FormatError LocalEntry := do
  let name ← p.utf8 v.nameIndex
  let desc ← p.utf8 v.descIndex
  return { name, desc, index := v.index }

/-- The entries of a table, as a pool reads them. -/
def entries (p : Pool) (table : Array LocalVariable) : Except FormatError (List LocalEntry) :=
  table.toList.mapM (entry p)

/-- The entry of a local variable is read from its two names. -/
theorem entry_eq_ok {v : LocalVariable} {e : LocalEntry} : v.entry p = .ok e ↔
    p.utf8 v.nameIndex = .ok e.name ∧ p.utf8 v.descIndex = .ok e.desc ∧ v.index = e.index := by
  simp only [entry, Except.bind_eq_ok, Except.pure_eq_ok]
  constructor
  · rintro ⟨name, hname, desc, hdesc, rfl⟩
    exact ⟨hname, hdesc, rfl⟩
  · rintro ⟨hname, hdesc, hindex⟩
    exact ⟨e.name, hname, e.desc, hdesc, by rw [hindex]⟩

/-- The first table with a name among attributes; where there is none, it has no entries. -/
def tableIn (attributes : Array Attribute) (p : Pool) (name : String) :
    Except FormatError (Array LocalVariable) :=
  match Attribute.find? attributes p name with
  | some a => decodeTable a.data
  | none => .ok #[]

end LocalVariable

/-! ### Slots of parameters -/

/-- The slot of the first parameter. An instance method has its receiver in slot 0. -/
def Access.firstSlot (access : Access) : Nat :=
  if access.isStatic then 0 else 1

/-- Types with the slots they start in, given the first. Long and double values take two. -/
def Descriptor.slotsFrom : Nat → List String → List (Nat × String)
  | _, [] => []
  | slot, type :: rest => (slot, type) :: slotsFrom (slot + slotCount type) rest

/-- A slot as an entry holds it, with the new form of the type in it. -/
def Renaming.mapSlot (r : Renaming) (param : Nat × String) : UInt16 × String :=
  (param.1.toUInt16, r.mapDescriptor param.2)

/-- The loop counts slots in 16 bits and collects parameters in reverse. -/
theorem Renaming.foldl_slots (r : Renaming) (params : List String) (slot : Nat)
    (slots : List (UInt16 × String)) :
    (params.foldl (fun found param => (found.1 + (Descriptor.slotCount param).toUInt16,
      (found.1, r.mapDescriptor param) :: found.2)) (slot.toUInt16, slots)).2.reverse =
      slots.reverse ++ (Descriptor.slotsFrom slot params).map r.mapSlot := by
  induction params generalizing slot slots with
  | nil => simp [Descriptor.slotsFrom]
  | cons type rest ih =>
    have hnext := ih (slot + Descriptor.slotCount type)
      ((slot.toUInt16, r.mapDescriptor type) :: slots)
    -- Counting in 16 bits is adding first and cutting off then.
    rw [Nat.toUInt16, UInt16.ofNat_add] at hnext
    rw [List.foldl_cons, hnext]
    simp [Descriptor.slotsFrom, mapSlot]

/-- The slots of the parameters come from the parsed descriptor, each type mapped. -/
theorem Renaming.slotsOfParameters_eq (r : Renaming) (access : Access) {desc : String}
    {types : Descriptor.Method} (h : Descriptor.method? desc = some types) :
    r.slotsOfParameters access desc =
      (Descriptor.slotsFrom access.firstSlot types.params).map r.mapSlot := by
  have hfirst : (if access.isStatic then (0 : UInt16) else 1) = access.firstSlot.toUInt16 := by
    unfold Access.firstSlot
    split <;> rfl
  simp only [slotsOfParameters, h, hfirst]
  exact r.foldl_slots types.params access.firstSlot []

/-- A change of visibility moves no parameter. -/
theorem Access.firstSlot_withVisibility (access : Access) (v : Visibility) :
    (access.withVisibility v).firstSlot = access.firstSlot := by
  have hbit : (visibilityBit v).toBitVec &&& 8#16 = 0#16 := by cases v <;> decide
  have hbits : ((access.bits &&& ~~~visibilityMask) ||| visibilityBit v) &&& 0x0008 =
      access.bits &&& 0x0008 := by
    apply UInt16.toBitVec_inj.1
    simp only [UInt16.toBitVec_and, UInt16.toBitVec_or, UInt16.toBitVec_not,
      BitVec.and_or_distrib_right, BitVec.and_assoc]
    simp [visibilityMask, hbit]
  simp [firstSlot, isStatic, has, withVisibility, hbits]

/-! ### Lists of pairs -/

/-- Where every pair of a list and another is related to an element of a third list, and the first
list to a fourth, what follows for single elements follows for the lists. -/
theorem forall₂_zipWith {α β γ δ ε : Type} {R : α × β → γ → Prop} {S : α → δ → Prop}
    {T : γ → ε → Prop} {f : δ → β → ε} (hT : ∀ a b c d, R (a, b) c → S a d → T c (f d b))
    {as : List α} {bs : List β} {cs : List γ} {ds : List δ} (hR : List.Forall₂ R (as.zip bs) cs)
    (hS : List.Forall₂ S as ds) : List.Forall₂ T cs (List.zipWith f ds bs) := by
  -- The two lists that are zipped are as long as the related ones, so both end together.
  induction hS generalizing bs cs with
  | nil =>
    cases hR
    exact .nil
  | cons hd _ ih =>
    cases bs with
    | nil =>
      cases hR
      exact .nil
    | cons b bs =>
      cases hR with
      | cons hc hcs => exact .cons (hT _ _ _ _ hc hd) (ih hcs)

/-- Every element of a list is paired with one of a list as long. -/
theorem exists_mem_zip {α β : Type} {as : List α} {bs : List β} (hlength : as.length = bs.length)
    {a : α} (ha : a ∈ as) : ∃ b, (a, b) ∈ as.zip bs := by
  rw [← List.map_fst_zip (Nat.le_of_eq hlength)] at ha
  obtain ⟨⟨a, b⟩, hab, rfl⟩ := List.mem_map.1 ha
  exact ⟨b, hab⟩

/-- What is the same for both lists, in spite of a third one, is the same for their elements. -/
theorem map_eq_map_of_forall₂_zip {α β γ δ : Type} {R : α × β → γ → Prop} {f : α → δ} {g : γ → δ}
    (hfg : ∀ a b c, R (a, b) c → g c = f a) {as : List α} {bs : List β} {cs : List γ}
    (hlength : bs.length = as.length) (h : List.Forall₂ R (as.zip bs) cs) :
    cs.map g = as.map f := by
  induction as generalizing bs cs with
  | nil =>
    cases h
    rfl
  | cons a as ih =>
    cases bs with
    | nil => cases hlength
    | cons b bs =>
      cases h with
      | cons hc hcs =>
        rw [List.map_cons, List.map_cons, hfg _ _ _ hc, ih (Nat.succ.inj hlength) hcs]

/-! ### New types -/

/-- An entry under the new form of its type. -/
structure LocalVariable.Retyped (f : String → String) (p q : Pool) (v v' : LocalVariable) :
    Prop where
  eq_with : ∃ descIndex, v' = { v with descIndex }
  type : ∃ old, p.utf8 v.descIndex = .ok old ∧ q.utf8 v'.descIndex = .ok (f old)

namespace Scope

variable {s : Scope}

/-- A patched table keeps its entries, each with its type mapped. -/
theorem Ready.patchTable {f : String → String} {data data' : Bytes} (hp : s.Ready p)
    (h : patchTable (s.mapText f) data p = .ok data' q) (hfinal : q.Extends final) :
    ∃ table table', LocalVariable.decodeTable data = .ok table ∧
      LocalVariable.decodeTable data' = .ok table' ∧
      List.Forall₂ (LocalVariable.Retyped f s.source final) table.toList table'.toList := by
  simp only [Scope.patchTable, EStateM.bind_eq_ok, EStateM.ofExcept_eq_ok] at h
  obtain ⟨table, _, ⟨hdecode, rfl⟩, table', _, hmap, hencode, rfl⟩ := h
  refine ⟨table, table', hdecode, LocalVariable.decodeTable_encodeTable hencode, ?_⟩
  -- Each entry is mapped into a pool that later entries only extend.
  refine hp.forall₂_mapM (fun v _ => .bind (onlyInterns_mapText s f _) fun _ => .pure _) ?_ hmap
    hfinal
  intro v _ p v' q hp hv hext
  simp only [EStateM.bind_eq_ok, EStateM.pure_eq_ok] at hv
  obtain ⟨i, _, hi, rfl, rfl⟩ := hv
  obtain ⟨old, hold, -, -, hread⟩ := hp.mapText hi
  exact ⟨⟨i, rfl⟩, old, hold, hext.keeps.utf8 hread⟩

end Scope

/-! ### New names -/

/-- The entries of a table under their new names. -/
def LocalPolicy.renamed (naming : LocalPolicy) (locals : List LocalEntry) : List LocalEntry :=
  List.zipWith (fun e new => { e with name := new.getD e.name }) locals (naming.rename locals)

theorem LocalPolicy.length_rename (naming : LocalPolicy) (locals : List LocalEntry) :
    (naming.rename locals).length = locals.length := by
  obtain ⟨_, hrun⟩ := exists_run_rename naming locals
  exact hrun.answers.length_eq.symm

/-- The parameters without an entry from the start of the method. -/
def withoutEntry (params : List (UInt16 × String)) (table : Array LocalVariable) :
    List (UInt16 × String) :=
  params.filter fun (slot, _) => !table.any fun v => v.index = slot && v.startPc = 0

/-- The entry of a parameter that has no name yet. -/
def LocalEntry.ofParam (param : UInt16 × String) : LocalEntry :=
  { name := "", desc := param.2, index := param.1 }

/-- An entry and the answer for it, and the entry under that name. -/
inductive LocalVariable.Named (q : Pool) : LocalVariable × Option String → LocalVariable → Prop
  | kept {v : LocalVariable} : Named q (v, none) v
  | given {v : LocalVariable} {name : String} {nameIndex : UInt16} :
    q.utf8 nameIndex = .ok name → Named q (v, some name) { v with nameIndex }

/-- A parameter and the answer for it, and its entry over the whole length of the method. -/
inductive LocalVariable.Added (q : Pool) (length : UInt16) :
    (UInt16 × String) × Option String → LocalVariable → Prop
  | intro {slot nameIndex descIndex : UInt16} {desc name : String} :
    q.utf8 nameIndex = .ok name → q.utf8 descIndex = .ok desc →
    Added q length ((slot, desc), some name)
      { startPc := 0, length, nameIndex, descIndex, index := slot }

namespace LocalVariable.Named

variable {v v' : LocalVariable} {new : Option String}

/-- A name given to an entry does not change its range. -/
theorem rangeOf_eq (h : Named q (v, new) v') : Scope.rangeOf v' = Scope.rangeOf v := by
  cases h <;> rfl

/-- A name given to an entry is the name of its entry. -/
theorem entry_eq {e : LocalEntry} (h : Named q (v, new) v') (he : v.entry q = .ok e) :
    v'.entry q = .ok { e with name := new.getD e.name } := by
  obtain ⟨hname, hdesc, hindex⟩ := entry_eq_ok.1 he
  cases h with
  | kept => exact entry_eq_ok.2 ⟨hname, hdesc, hindex⟩
  | given hread => exact entry_eq_ok.2 ⟨hread, hdesc, hindex⟩

end LocalVariable.Named

/-- An entry that is added is that of its parameter under the new name. -/
theorem LocalVariable.Added.entry_eq {param : UInt16 × String} {new : Option String}
    {length : UInt16} {v : LocalVariable} (h : Added q length (param, new) v) :
    v.entry q = .ok { LocalEntry.ofParam param with name := new.getD "" } := by
  cases h with
  | intro hname hdesc => exact entry_eq_ok.2 ⟨hname, hdesc, rfl⟩

namespace Scope

variable {s : Scope}

/-- The ranges and slots of entries that are given a name, with the indices of the names. -/
def givenTo (entries : List (LocalVariable × Option String)) (named : List LocalVariable) :
    List ((UInt16 × UInt16 × UInt16) × UInt16) :=
  ((entries.zip named).filter (·.1.2.isSome)).map fun (_, v) => (rangeOf v, v.nameIndex)

/-- The entries are named one by one, and the names given are noted. -/
theorem nameEntries_ok {done table : Array LocalVariable} {given given' : GivenNames}
    {entries : List (LocalVariable × Option String)} (hp : p.Coherent)
    (h : nameEntries done given entries p = .ok (table, given') q) (hfinal : q.Extends final) :
    ∃ named, table = done ++ named.toArray ∧
      List.Forall₂ (LocalVariable.Named final) entries named ∧
      given' = given.insertMany (givenTo entries named) := by
  induction entries generalizing done given p with
  | nil =>
    obtain ⟨⟨⟩, -⟩ := EStateM.pure_eq_ok.1 h
    exact ⟨[], by simp, .nil, rfl⟩
  | cons entry rest ih =>
    obtain ⟨v, _ | name⟩ := entry
    -- An entry that keeps its name, and one that is given a new one.
    · obtain ⟨named, rfl, hnamed, rfl⟩ := ih hp h
      exact ⟨v :: named, List.push_append_toArray .., .cons .kept hnamed, rfl⟩
    · obtain ⟨i, p₁, hi, h⟩ := EStateM.bind_eq_ok.1 h
      obtain ⟨hp₁, -, hread⟩ := hp.internText hi
      obtain ⟨-, hext⟩ := (onlyInterns_nameEntries _ _ _ _ _ _ h).coherent hp₁
      obtain ⟨named, rfl, hnamed, rfl⟩ := ih hp₁ h
      refine ⟨{ v with nameIndex := i } :: named, List.push_append_toArray ..,
        .cons (.given ((hext.trans hfinal).keeps.utf8 hread)) hnamed, ?_⟩
      exact Std.HashMap.insertMany_cons.symm

/-- Every parameter without an entry is given one. -/
theorem addParams_ok {length : UInt16} {table table' : Array LocalVariable}
    {params : List ((UInt16 × String) × Option String)} (hp : p.Coherent)
    (hparams : ∀ param ∈ params, param.2.isSome)
    (h : addParams length table params p = .ok table' q) (hfinal : q.Extends final) :
    ∃ added, table' = table ++ added.toArray ∧
      List.Forall₂ (LocalVariable.Added final length) params added := by
  induction params generalizing table p with
  | nil =>
    obtain ⟨rfl, -⟩ := EStateM.pure_eq_ok.1 h
    exact ⟨[], by simp, .nil⟩
  | cons param rest ih =>
    obtain ⟨hsome, hrest⟩ := List.forall_mem_cons.1 hparams
    obtain ⟨⟨slot, desc⟩, _ | name⟩ := param
    -- `hparams` excludes a parameter that is given no name.
    · cases hsome
    · simp only [addParams, EStateM.bind_eq_ok] at h
      obtain ⟨i, p₁, hi, j, p₂, hj, h⟩ := h
      obtain ⟨hp₁, -, hname⟩ := hp.internText hi
      obtain ⟨hp₂, hext, hdesc⟩ := hp₁.internText hj
      obtain ⟨-, hext'⟩ := (onlyInterns_addParams _ _ _ _ _ _ h).coherent hp₂
      obtain ⟨added, rfl, hadded⟩ := ih hp₂ hrest h
      refine ⟨_ :: added, List.push_append_toArray .., .cons (.intro ?_ ?_) hadded⟩
      · exact ((hext.trans hext').trans hfinal).keeps.utf8 hname
      · exact (hext'.trans hfinal).keeps.utf8 hdesc

end Scope

/-- A name that is empty has to be replaced. -/
theorem LocalPolicy.isUnusable_empty (naming : LocalPolicy) : naming.isUnusable "" = true := by
  simp [isUnusable, isIdentifier]

/-- The answers for entries and for parameters without one, each of which is given a name. -/
theorem LocalPolicy.exists_rename_append (naming : LocalPolicy) (old : List LocalEntry)
    (params : List (UInt16 × String)) :
    ∃ news news', naming.rename (old ++ params.map .ofParam) = news ++ news' ∧
      news.length = old.length ∧ news'.length = params.length ∧ ∀ new ∈ news', new.isSome := by
  obtain ⟨final, hrun⟩ := exists_run_rename naming (old ++ params.map .ofParam)
  have hlength := hrun.answers.length_eq
  rw [List.length_append, List.length_map] at hlength
  refine ⟨_, _, (List.take_append_drop old.length _).symm, ?_, ?_, ?_⟩
  · rw [List.length_take]
    omega
  · rw [List.length_drop]
    omega
  -- An empty name is unusable, so a parameter is always given one.
  · intro new hnew
    have hanswers := List.forall₂_drop old.length hrun.answers
    rw [List.drop_left] at hanswers
    obtain ⟨e, he, hanswer⟩ := exists_of_mem_forall₂ hanswers.flip hnew
    obtain ⟨param, -, rfl⟩ := List.mem_map.1 he
    cases hanswer with
    | kept husable => cases (naming.isUnusable_empty).symm.trans husable
    | replaced => rfl

/-- What becomes of a table whose method has these parameters, and the names its entries are
given. -/
inductive TableNamed (naming : LocalPolicy) (params : List (UInt16 × String)) (length : Nat)
    (q : Pool) (table : Array LocalVariable) : Array LocalVariable → Scope.GivenNames → Prop
  | intro {old : List LocalEntry} {news news' : List (Option String)}
    {named added : List LocalVariable} :
    LocalVariable.entries q table = .ok old →
    naming.rename (old ++ (withoutEntry params table).map .ofParam) = news ++ news' →
    news.length = table.size →
    List.Forall₂ (LocalVariable.Named q) (table.toList.zip news) named →
    List.Forall₂ (LocalVariable.Added q length.toUInt16) ((withoutEntry params table).zip news')
      added →
    TableNamed naming params length q table (named ++ added).toArray
      (Std.HashMap.ofList (Scope.givenTo (table.toList.zip news) named))

namespace Scope

variable {s : Scope}

/-- The entries are read and the pool stays. -/
theorem localSlots_eq_ok {table : Array LocalVariable} {old : List LocalEntry} :
    localSlots table p = .ok old q ↔ LocalVariable.entries p table = .ok old ∧ p = q := by
  simp only [localSlots, EStateM.bind_eq_ok, EStateM.ofExcept_eq_ok]
  constructor
  · rintro ⟨_, _, hget, hold, rfl⟩
    obtain ⟨rfl, rfl⟩ := EStateM.Result.ok.inj hget
    exact ⟨hold, rfl⟩
  · rintro ⟨hold, rfl⟩
    exact ⟨p, p, rfl, hold, rfl⟩

/-- Entries are read alike from a pool that keeps what it had. -/
theorem entries_of_keeps {table : Array LocalVariable} {old : List LocalEntry} (h : p.Keeps q)
    (hold : LocalVariable.entries p table = .ok old) : LocalVariable.entries q table = .ok old := by
  refine mapM_eq_ok_of_forall₂ ((forall₂_of_mapM_eq_ok hold).imp fun v e he => ?_)
  obtain ⟨hname, hdesc, hindex⟩ := LocalVariable.entry_eq_ok.1 he
  exact LocalVariable.entry_eq_ok.2 ⟨h.utf8 hname, h.utf8 hdesc, hindex⟩

/-- Without new names, all entries are kept and none is given a name. -/
theorem forall₂_named_of_none {vs : List LocalVariable} {news : List (Option String)}
    (hlength : news.length = vs.length) (hnone : ∀ new ∈ news, new = none) :
    List.Forall₂ (LocalVariable.Named q) (vs.zip news) vs ∧ givenTo (vs.zip news) vs = [] := by
  induction vs generalizing news with
  | nil => exact ⟨.nil, rfl⟩
  | cons v vs ih =>
    cases news with
    | nil => cases hlength
    | cons new news =>
      obtain ⟨rfl, hrest⟩ := List.forall_mem_cons.1 hnone
      obtain ⟨hnamed, hgiven⟩ := ih (Nat.succ.inj hlength) hrest
      exact ⟨.cons .kept hnamed, hgiven⟩

section Answers

variable {naming : LocalPolicy} {params : List (UInt16 × String)} {length : Nat}
  {table table₁ table₂ : Array LocalVariable} {given : GivenNames} {old : List LocalEntry}
  {news news' : List (Option String)} {p₁ : Pool}
  (hold : LocalVariable.entries final table = .ok old)
  (hnews : naming.rename (old ++ (withoutEntry params table).map .ofParam) = news ++ news')
  (hsize : news.length = table.toList.length) (hsome : ∀ new ∈ news', new.isSome)

include hold hnews hsize hsome

/-- Where no name is answered, no parameter is without an entry and the table stays as it is. -/
theorem tableNamed_of_none (hall : ∀ new ∈ news ++ news', new = none) :
    TableNamed naming params length final table table ∅ := by
  obtain ⟨hnone, hnone'⟩ := List.forall_mem_append.1 hall
  -- A parameter without an entry would have been given a name.
  obtain rfl : news' = [] := List.eq_nil_iff_forall_not_mem.2 fun new hnew => by
    have := hsome new hnew
    rw [hnone' new hnew] at this
    cases this
  obtain ⟨hnamed, hgiven⟩ := forall₂_named_of_none (q := final) hsize hnone
  have hresult : TableNamed naming params length final table (table.toList ++ []).toArray
      (Std.HashMap.ofList (givenTo (table.toList.zip news) table.toList)) :=
    .intro hold hnews hsize hnamed (by simp)
  rw [hgiven, List.append_nil, Array.toArray_toList] at hresult
  exact hresult

/-- The entries are given their names, and then the parameters are added. -/
theorem tableNamed_of_steps (hp : p.Coherent)
    (hentries : nameEntries #[] {} (table.toList.zip news) p = .ok (table₁, given) p₁)
    (hadd : addParams length.toUInt16 table₁
      ((withoutEntry params table).zip ((news ++ news').drop table₁.size)) p₁ = .ok table₂ q)
    (hfinal : q.Extends final) : TableNamed naming params length final table table₂ given := by
  obtain ⟨hp₁, -⟩ := (onlyInterns_nameEntries _ _ _ _ _ _ hentries).coherent hp
  obtain ⟨-, hext⟩ := (onlyInterns_addParams _ _ _ _ _ _ hadd).coherent hp₁
  obtain ⟨named, rfl, hnamed, rfl⟩ := nameEntries_ok hp hentries (hext.trans hfinal)
  -- The first table holds an entry for each answer in `news`, so `news'` is left.
  have hdrop : (news ++ news').drop (#[] ++ named.toArray).size = news' := by
    refine List.drop_left' ?_
    have hnumber := hnamed.length_eq
    rw [List.length_zip, hsize, Nat.min_self] at hnumber
    simpa [hnumber] using hsize
  rw [hdrop] at hadd
  obtain ⟨added, rfl, hadded⟩ :=
    addParams_ok hp₁ (fun param hparam => hsome _ (List.of_mem_zip hparam).2) hadd hfinal
  have hresult := TableNamed.intro hold hnews hsize hnamed hadded
  rw [Std.HashMap.ofList_eq_insertMany_empty, ← List.append_toArray] at hresult
  simpa using hresult

end Answers

/-- The table that renaming gives is named as the policy says. -/
theorem Ready.renameTable {naming : LocalPolicy} {length : Nat} {table : Array LocalVariable}
    {r : Option (Array LocalVariable × GivenNames)} (hp : s.Ready p)
    (h : s.renameTable naming length table p = .ok r q) (hfinal : q.Extends final) :
    TableNamed naming s.params length final table (r.elim table Prod.fst) (r.elim ∅ Prod.snd) := by
  have hextends := ((onlyInterns_renameTable _ _ _ _ _ _ _ h).coherent hp.coherent).2.trans hfinal
  simp only [Scope.renameTable, EStateM.bind_eq_ok] at h
  obtain ⟨old, _, hslots, h⟩ := h
  obtain ⟨hold, rfl⟩ := localSlots_eq_ok.1 hslots
  have hold' := entries_of_keeps hextends.keeps hold
  obtain ⟨news, news', hnews, hlength, -, hsome⟩ :=
    naming.exists_rename_append old (withoutEntry s.params table)
  have hsize : news.length = table.toList.length :=
    hlength.trans (forall₂_of_mapM_eq_ok hold).length_eq.symm
  have hrename : naming.rename (old ++ (s.unnamedParams table).map fun (slot, desc) =>
      { name := "", desc, index := slot }) = news ++ news' := hnews
  rw [hrename] at h
  split at h
  -- No answer names anything, or a table is written.
  · next hnone =>
    obtain ⟨rfl, rfl⟩ := EStateM.pure_eq_ok.1 h
    refine tableNamed_of_none hold' hnews hsize hsome ?_
    simpa only [List.all_eq_true, Option.isNone_iff_eq_none] using hnone
  · have hzip : table.toList.zip (news ++ news') = table.toList.zip news := by
      rw [← List.append_nil table.toList, List.zip_append (by simpa using hsize.symm),
        List.zip_nil_left, List.append_nil, List.append_nil]
    rw [hzip] at h
    simp only [EStateM.bind_eq_ok] at h
    obtain ⟨⟨table₁, given⟩, p₁, hentries, h⟩ := h
    split at h
    -- Too many entries end in an error.
    · obtain ⟨_, _, hthrow, -⟩ := EStateM.bind_eq_ok.1 h
      exact (EStateM.throw_eq_ok.1 hthrow).elim
    · simp only [EStateM.bind_eq_ok, EStateM.pure_eq_ok] at h
      obtain ⟨table₂, _, hadd, rfl, rfl⟩ := h
      exact tableNamed_of_steps hold' hnews hsize hsome hp.coherent hentries hadd hfinal

end Scope

/-! ### What a table becomes -/

namespace TableNamed

variable {naming : LocalPolicy} {params : List (UInt16 × String)} {length : Nat}
  {table table' : Array LocalVariable} {given : Scope.GivenNames}

/-- The new table has the entries of the old one and of the parameters without one, under their new
names. -/
theorem entries_eq (h : TableNamed naming params length q table table' given) :
    ∃ old, LocalVariable.entries q table = .ok old ∧ LocalVariable.entries q table' =
      .ok (naming.renamed (old ++ (withoutEntry params table).map .ofParam)) := by
  cases h with
  | @intro old news news' named added hold hnews hsize hnamed hadded =>
    have hlength : old.length = news.length := by
      rw [hsize, ← (forall₂_of_mapM_eq_ok hold).length_eq, Array.length_toList]
    have hparams : List.Forall₂ (fun param e => e = LocalEntry.ofParam param)
        (withoutEntry params table) ((withoutEntry params table).map .ofParam) := by
      rw [List.forall₂_map_right_iff]
      exact List.forall₂_same.2 fun _ _ => rfl
    refine ⟨old, hold, mapM_eq_ok_of_forall₂ ?_⟩
    rw [LocalPolicy.renamed, hnews, List.zipWith_append hlength, List.toList_toArray]
    -- The old entries under their answers, then the parameters under theirs.
    refine List.rel_append ?_ ?_
    · exact forall₂_zipWith (fun _ _ _ _ hv he => hv.entry_eq he) hnamed
        (forall₂_of_mapM_eq_ok hold)
    · refine forall₂_zipWith (fun _ _ _ _ hv he => ?_) hadded hparams
      rw [he]
      exact hv.entry_eq

/-- Old entries keep their ranges and slots, and those of parameters cover the whole method. -/
theorem ranges_eq (h : TableNamed naming params length q table table' given) :
    table'.toList.map Scope.rangeOf = table.toList.map Scope.rangeOf ++
      (withoutEntry params table).map fun (slot, _) => ((0 : UInt16), length.toUInt16, slot) := by
  cases h with
  | @intro old news news' named added hold hnews hsize hnamed hadded =>
    -- There is one answer for each entry, old or added.
    have hsize' : news'.length = (withoutEntry params table).length := by
      have hlength := naming.length_rename (old ++ (withoutEntry params table).map .ofParam)
      rw [hnews, List.length_append, List.length_append, List.length_map,
        ← (forall₂_of_mapM_eq_ok hold).length_eq, hsize, Array.length_toList] at hlength
      exact Nat.add_left_cancel hlength
    rw [List.toList_toArray, List.map_append]
    refine congrArg₂ _ ?_ ?_
    -- An old entry keeps its range, an added one has that of the whole method.
    · exact map_eq_map_of_forall₂_zip (fun _ _ _ hv => hv.rangeOf_eq) hsize hnamed
    · refine map_eq_map_of_forall₂_zip (fun _ _ _ hv => ?_) hsize' hadded
      cases hv
      rfl

/-- Every parameter has an entry from the start of the method. -/
theorem exists_of_param (h : TableNamed naming params length q table table' given)
    {param : UInt16 × String} (hparam : param ∈ params) :
    ∃ v ∈ table', v.startPc = 0 ∧ v.index = param.1 := by
  have hranges := h.ranges_eq
  obtain ⟨range, hrange, hstart, hslot⟩ :
      ∃ range ∈ table'.toList.map Scope.rangeOf, range.1 = 0 ∧ range.2.2 = param.1 := by
    rw [hranges]
    -- The parameter has an entry that was there, or is given one.
    by_cases hentry : table.any fun v => v.index = param.1 && v.startPc = 0
    · obtain ⟨v, hv, hsame⟩ := Array.any_eq_true'.1 hentry
      simp only [Bool.and_eq_true, decide_eq_true_eq] at hsame
      refine ⟨Scope.rangeOf v, List.mem_append_left _ ?_, hsame.2, hsame.1⟩
      exact List.mem_map_of_mem (Array.mem_toList_iff.2 hv)
    · refine ⟨(0, length.toUInt16, param.1), List.mem_append_right _ ?_, rfl, rfl⟩
      exact List.mem_map.2 ⟨param, List.mem_filter.2 ⟨hparam, by simpa using hentry⟩, rfl⟩
  obtain ⟨v, hv, rfl⟩ := List.mem_map.1 hrange
  exact ⟨v, Array.mem_toList_iff.1 hv, hstart, hslot⟩

end TableNamed

/-! ### Names of generic types -/

/-- A table has entries with the range and slot of `t`, and all of them have the name of `t`. -/
def LocalVariable.NamedAfter (p : Pool) (table : Array LocalVariable) (t : LocalVariable) : Prop :=
  (∃ v ∈ table, Scope.rangeOf v = Scope.rangeOf t) ∧
    ∀ v ∈ table, Scope.rangeOf v = Scope.rangeOf t →
      ∃ name, p.utf8 v.nameIndex = .ok name ∧ p.utf8 t.nameIndex = .ok name

namespace Scope

/-- An entry of a table of generic types under the name given to its range and slot. -/
def nameType (given : GivenNames) (t : LocalVariable) : LocalVariable :=
  match given[rangeOf t]? with
  | some nameIndex => { t with nameIndex }
  | none => t

/-- Naming the types does not change the ranges. -/
theorem rangeOf_nameType (given : GivenNames) (t : LocalVariable) :
    rangeOf (nameType given t) = rangeOf t := by
  unfold nameType
  split <;> rfl

/-- Entries paired with what they become have the ranges and slots that those have. -/
theorem map_rangeOf_zip {entries : List (LocalVariable × Option String)}
    {named : List LocalVariable} (hlength : entries.length = named.length) :
    ((entries.zip named).map fun z => rangeOf z.2) = named.map rangeOf := by
  calc (entries.zip named).map (fun z => rangeOf z.2)
      = ((entries.zip named).map Prod.snd).map rangeOf := by rw [List.map_map]; rfl
    _ = named.map rangeOf := by rw [List.map_snd_zip (Nat.le_of_eq hlength.symm)]

section Keys

variable {entries : List (LocalVariable × Option String)} {named : List LocalVariable}
  (hlength : entries.length = named.length) (hkeys : (named.map rangeOf).Nodup)

include hlength hkeys

/-- Where ranges and slots differ, they tell the places of entries apart. -/
theorem eq_of_rangeOf_eq {z z' : (LocalVariable × Option String) × LocalVariable}
    (hz : z ∈ entries.zip named) (hz' : z' ∈ entries.zip named)
    (hsame : rangeOf z.2 = rangeOf z'.2) : z = z' := by
  rw [← map_rangeOf_zip hlength] at hkeys
  exact List.inj_on_of_nodup_map hkeys hz hz' hsame

/-- Where ranges and slots differ, those of an entry lead to its name if it is given one. -/
theorem getElem?_givenTo {z : (LocalVariable × Option String) × LocalVariable}
    (hz : z ∈ entries.zip named) :
    (Std.HashMap.ofList (givenTo entries named))[rangeOf z.2]? =
      if z.1.2.isSome then some z.2.nameIndex else none := by
  have hkeys' : ((givenTo entries named).map Prod.fst).Nodup := by
    rw [← map_rangeOf_zip hlength] at hkeys
    rw [givenTo, List.map_map]
    exact hkeys.sublist (List.filter_sublist.map _)
  -- The ranges differ from one another, so one entry at most answers for a range.
  split
  · next hsome =>
    rw [getElem?_ofList_iff hkeys']
    exact List.mem_map.2 ⟨z, List.mem_filter.2 ⟨hz, hsome⟩, rfl⟩
  · next hnone =>
    refine Option.eq_none_iff_forall_ne_some.2 fun i hi => hnone ?_
    obtain ⟨z', hz', heq⟩ := List.mem_map.1 ((getElem?_ofList_iff hkeys').1 hi)
    obtain ⟨hmem, hsome⟩ := List.mem_filter.1 hz'
    obtain rfl := eq_of_rangeOf_eq hlength hkeys hmem hz (Prod.mk.inj heq).1
    exact hsome

end Keys

end Scope

/-- The entry of a table that `t` has its name from, under its new name, if it is given one. -/
theorem LocalVariable.Named.namedAfter {v v' t : LocalVariable} {new : Option String}
    {given : Scope.GivenNames} (h : Named q (v, new) v') (hkeeps : p.Keeps q) {name : String}
    (hv : p.utf8 v.nameIndex = .ok name) (ht : p.utf8 t.nameIndex = .ok name)
    (hgiven : given[Scope.rangeOf t]? = if new.isSome then some v'.nameIndex else none) :
    ∃ name', q.utf8 v'.nameIndex = .ok name' ∧
      q.utf8 (Scope.nameType given t).nameIndex = .ok name' := by
  cases h with
  | kept =>
    simp only [Scope.nameType, hgiven]
    exact ⟨name, hkeeps.utf8 hv, hkeeps.utf8 ht⟩
  | given hread =>
    simp only [Scope.nameType, hgiven]
    exact ⟨_, hread, hread⟩

/-- An entry that was added has not the range and slot of one that was there. -/
theorem LocalVariable.Added.rangeOf_ne {params : List (UInt16 × String)}
    {table : Array LocalVariable} {news : List (Option String)} {added : List LocalVariable}
    {length : UInt16}
    (h : List.Forall₂ (Added q length) ((withoutEntry params table).zip news) added)
    {u v : LocalVariable} (hu : u ∈ added) (hv : v ∈ table) :
    Scope.rangeOf u ≠ Scope.rangeOf v := by
  intro hsame
  -- A parameter without an entry from the start is all that is added.
  obtain ⟨⟨param, new⟩, hmem, hadded⟩ := exists_of_mem_forall₂ h.flip hu
  have hparam := (List.mem_filter.1 (List.of_mem_zip hmem).1).2
  rw [Bool.not_eq_true', ← Bool.not_eq_true, Array.any_eq_true'] at hparam
  refine hparam ⟨v, hv, ?_⟩
  cases hadded with
  | intro =>
    simp only [Scope.rangeOf, Prod.mk.injEq] at hsame
    simp [← hsame.1, ← hsame.2.2]

/-- A generic type that has its name from an entry has it from that entry under its new name. -/
theorem TableNamed.namedAfter {naming : LocalPolicy} {params : List (UInt16 × String)}
    {length : Nat} {table table' : Array LocalVariable} {given : Scope.GivenNames}
    (h : TableNamed naming params length q table table' given)
    (hkeys : (table.toList.map Scope.rangeOf).Nodup) (hkeeps : p.Keeps q) {t : LocalVariable}
    (ht : t.NamedAfter p table) : (Scope.nameType given t).NamedAfter q table' := by
  obtain ⟨⟨v, hv, hrange⟩, hall⟩ := ht
  obtain ⟨name, hvname, htname⟩ := hall v hv hrange
  cases h with
  | @intro old news news' named added hold hnews hsize hnamed hadded =>
    have hlength := hnamed.length_eq
    have hranges : named.map Scope.rangeOf = table.toList.map Scope.rangeOf :=
      map_eq_map_of_forall₂_zip (fun _ _ _ hv => hv.rangeOf_eq) hsize hnamed
    rw [← hranges] at hkeys
    obtain ⟨new, hentry⟩ := exists_mem_zip hsize.symm (Array.mem_toList_iff.2 hv)
    obtain ⟨v', hz⟩ := exists_mem_zip hlength hentry
    have hv' := (List.forall₂_iff_zip.1 hnamed).2 hz
    have hrange' := hv'.rangeOf_eq.trans hrange
    have hgiven := Scope.getElem?_givenTo hlength hkeys hz
    rw [hrange'] at hgiven
    refine ⟨⟨v', ?_, hrange'.trans (Scope.rangeOf_nameType _ t).symm⟩, fun u hu hsame => ?_⟩
    · exact List.mem_toArray.2 (List.mem_append_left _ (List.of_mem_zip hz).2)
    · rw [Scope.rangeOf_nameType] at hsame
      rcases List.mem_append.1 (List.mem_toArray.1 hu) with hu | hu
      -- No other entry has the range and slot of `v`, and none that was added does.
      · rw [← List.map_snd_zip (Nat.le_of_eq hlength.symm)] at hu
        obtain ⟨z, hz', rfl⟩ := List.mem_map.1 hu
        obtain rfl := Scope.eq_of_rangeOf_eq hlength hkeys hz' hz (hsame.trans hrange'.symm)
        exact hv'.namedAfter hkeeps hvname htname hgiven
      · exact absurd (hsame.trans hrange.symm) (LocalVariable.Added.rangeOf_ne hadded hu hv)

end Relabel
