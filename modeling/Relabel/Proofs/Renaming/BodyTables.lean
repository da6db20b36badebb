import Mathlib.Data.List.Find
import Relabel.Proofs.Renaming.LocalTables

/-!
# The local variables of a class

The types in both tables of a body are mapped when its attributes are, and names are replaced after
that. What one pass does to the attribute that holds a table, the other pass must not undo: each
table is found by its name before and after, and a change to one leaves the other as it was.

## Main results

- `Scope.tableIn_patched`: the first pass, on the attributes of a body.
- `Scope.Ready.tableIn_replaceLocals`: the second pass.
- `Scope.Ready.patchCode_tablesRenamed`: both passes over one body.
- `ClassFile.localsRenamed_of_relabel`: the tables of all methods of a class stay coherent: entries
  keep their order and ranges, every parameter has an entry, and generic types follow the names.
-/

namespace Relabel

variable {p q final : Pool}

/-! ### Tables among attributes -/

/-- The first element is the one at the first place. -/
theorem find?_eq_bind_findIdx? {α : Type} (pred : α → Bool) (l : List α) :
    l.find? pred = (l.findIdx? pred).bind (l[·]?) := by
  induction l with
  | nil => rfl
  | cons a l ih =>
    cases ha : pred a with
    | true => simp [List.findIdx?_cons, ha]
    | false =>
      rw [List.find?_cons, List.findIdx?_cons, ha, ih]
      cases l.findIdx? pred <;> rfl

/-- What a change to one element in a list does to the first that has a property. -/
theorem find?_modify {α : Type} (pred : α → Bool) {f : α → α} (hf : ∀ a, pred (f a) = pred a)
    (l : List α) (i : Nat) : (l.modify i f).find? pred =
      if l.findIdx? pred = some i then (l.find? pred).map f else l.find? pred := by
  induction l generalizing i with
  | nil => simp
  | cons a l ih =>
    cases i with
    | zero =>
      cases ha : pred a <;> simp [List.findIdx?_cons, hf, ha]
    | succ i =>
      cases ha : pred a <;> simp [List.findIdx?_cons, ha, ih]

/-- Modifying an element keeps the places that are found, if it keeps what is asked for. -/
theorem findIdx?_modify {α : Type} (pred : α → Bool) {f : α → α} (hf : ∀ a, pred (f a) = pred a)
    (l : List α) (i : Nat) : (l.modify i f).findIdx? pred = l.findIdx? pred := by
  induction l generalizing i with
  | nil => simp
  | cons a l ih => cases i <;> simp [List.findIdx?_cons, hf, ih]

/-- A search depends on the elements only. -/
theorem findIdx?_congr {α : Type} {pred pred' : α → Bool} {l : List α}
    (h : ∀ a ∈ l, pred a = pred' a) : l.findIdx? pred = l.findIdx? pred' := by
  induction l with
  | nil => rfl
  | cons a l ih =>
    obtain ⟨ha, hl⟩ := List.forall_mem_cons.1 h
    rw [List.findIdx?_cons, List.findIdx?_cons, ha, ih hl]

/-- Where the first elements of related lists are found by what related elements agree on, they are
related. -/
theorem rel_find? {α : Type} {R : α → α → Prop} {pred : α → Bool}
    (hpred : ∀ a b, R a b → pred b = pred a) {as bs : List α} (h : List.Forall₂ R as bs) :
    Option.Rel R (as.find? pred) (bs.find? pred) := by
  induction h with
  | nil => exact .none
  | @cons a b _ _ hab _ ih =>
    rw [List.find?_cons, List.find?_cons, hpred a b hab]
    split
    · exact .some hab
    · exact ih

namespace Scope

open LocalVariable

variable {s : Scope} {attributes attributes' : Array Attribute} {name : String} {i : Nat}
  {data : Bytes}

/-- The table at the place of an attribute is that of the attribute. -/
theorem tableAt_findIdx? (attributes : Array Attribute) (name : String) :
    tableAt attributes (attributes.findIdx? (Attribute.isNamed p name)) =
      tableIn attributes p name := by
  obtain ⟨l⟩ := attributes
  rw [tableIn, Attribute.find?, List.find?_toArray, find?_eq_bind_findIdx?, List.findIdx?_toArray]
  cases hplace : l.findIdx? (Attribute.isNamed p name) with
  | none => rfl
  | some i =>
    obtain ⟨hlt, -⟩ := List.findIdx?_eq_some_iff_getElem.1 hplace
    simp [tableAt, payload, hlt]

/-- A new payload changes the table of its attribute only. -/
theorem tableIn_setPayload : tableIn (setPayload attributes i data) p name =
    if attributes.findIdx? (Attribute.isNamed p name) = some i then decodeTable data
    else tableIn attributes p name := by
  -- A new payload does not change the name of an attribute, and so not where it stands.
  have hnamed : ∀ a : Attribute,
      Attribute.isNamed p name { a with data } = a.isNamed p name := fun _ => rfl
  obtain ⟨l⟩ := attributes
  rw [tableIn, tableIn, Attribute.find?, Attribute.find?, setPayload, ← Array.find?_toList,
    Array.toList_modify, find?_modify (Attribute.isNamed p name) hnamed, List.findIdx?_toArray,
    List.find?_toArray]
  by_cases hplace : l.findIdx? (Attribute.isNamed p name) = some i
  · obtain ⟨hlt, -⟩ := List.findIdx?_eq_some_iff_getElem.1 hplace
    simp [find?_eq_bind_findIdx?, hplace, hlt]
  · simp [hplace]

/-- A new payload changes no name, so each attribute stays where it is. -/
theorem findIdx?_setPayload (attributes : Array Attribute) (i : Nat) (data : Bytes) (p : Pool)
    (name : String) : (setPayload attributes i data).findIdx? (Attribute.isNamed p name) =
      attributes.findIdx? (Attribute.isNamed p name) := by
  have hnamed : ∀ a : Attribute,
      Attribute.isNamed p name { a with data } = a.isNamed p name := fun _ => rfl
  obtain ⟨l⟩ := attributes
  rw [setPayload, List.modify_toArray, List.findIdx?_toArray,
    findIdx?_modify (Attribute.isNamed p name) hnamed, List.findIdx?_toArray]

/-- An attribute is found by one name only. -/
theorem findIdx?_isNamed_ne {name' : String} (hne : name ≠ name')
    (h : attributes.findIdx? (Attribute.isNamed p name') = some i) :
    attributes.findIdx? (Attribute.isNamed p name) ≠ some i := by
  intro h'
  obtain ⟨a, ha, hname⟩ := getElem?_of_findIdx? h
  obtain ⟨a', ha', hname'⟩ := getElem?_of_findIdx? h'
  obtain rfl := Option.some.inj (ha.symm.trans ha')
  exact hne (Except.ok.inj (hname'.symm.trans hname))

/-- What is put is the table that is found afterwards, and other tables stay. -/
theorem tableIn_putTable (hp : p.Coherent)
    (h : putTable attributes
      (attributes.findIdx? (Attribute.isNamed final "LocalVariableTable")) data p =
        .ok attributes' q) (hfinal : q.Extends final) :
    tableIn attributes' final "LocalVariableTable" = decodeTable data ∧
      ∀ name ≠ "LocalVariableTable",
        attributes'.findIdx? (Attribute.isNamed final name) =
          attributes.findIdx? (Attribute.isNamed final name) ∧
        tableIn attributes' final name = tableIn attributes final name := by
  cases hplace : attributes.findIdx? (Attribute.isNamed final "LocalVariableTable") with
  -- The attribute was there, so its payload is replaced.
  | some i =>
    rw [hplace] at h
    obtain ⟨rfl, -⟩ := EStateM.pure_eq_ok.1 h
    refine ⟨by rw [tableIn_setPayload, if_pos hplace], fun name hname => ?_⟩
    exact ⟨findIdx?_setPayload .., by
      rw [tableIn_setPayload, if_neg (findIdx?_isNamed_ne hname hplace)]⟩
  | none =>
    -- It was not, so it comes last, and is found because nothing before it has the name.
    rw [hplace] at h
    simp only [putTable, EStateM.bind_eq_ok, EStateM.pure_eq_ok] at h
    obtain ⟨i, _, hi, rfl, rfl⟩ := h
    obtain ⟨-, -, hread⟩ := hp.internText hi
    have hread := hfinal.keeps.utf8 hread
    have hnone : attributes.find? (Attribute.isNamed final "LocalVariableTable") = none := by
      rw [Array.find?_eq_none]
      simpa using Array.findIdx?_eq_none_iff.1 hplace
    constructor
    · simp [tableIn, Attribute.find?, Array.find?_push, hnone, Attribute.isNamed, hread]
    · intro name hname
      have hother : Attribute.isNamed final name { nameIndex := i, data } = false := by
        simp [Attribute.isNamed, hread, Ne.symm hname]
      obtain ⟨l⟩ := attributes
      constructor
      · simp [List.findIdx?_append, List.findIdx?_cons, hother]
      · simp [tableIn, Attribute.find?, hother]

/-- The names given are handed on to the table of generic types, and the other table stays. -/
theorem tableIn_nameTypes {given : GivenNames}
    (h : nameTypes given attributes
      (attributes.findIdx? (Attribute.isNamed final "LocalVariableTypeTable")) = .ok attributes')
    {types : Array LocalVariable}
    (htypes : tableIn attributes final "LocalVariableTypeTable" = .ok types) :
    tableIn attributes' final "LocalVariableTypeTable" = .ok (types.map (nameType given)) ∧
      tableIn attributes' final "LocalVariableTable" =
        tableIn attributes final "LocalVariableTable" := by
  have hplaced := tableAt_findIdx? (p := final) attributes "LocalVariableTypeTable"
  rw [htypes] at hplaced
  cases hplace : attributes.findIdx? (Attribute.isNamed final "LocalVariableTypeTable") with
  -- Without an attribute there are no types.
  | none =>
    rw [hplace] at h hplaced
    obtain rfl := Except.ok.inj h
    obtain rfl := Except.ok.inj hplaced
    exact ⟨by rw [htypes, Array.map_empty], rfl⟩
  | some i =>
    rw [hplace] at h hplaced
    simp only [nameTypes, Except.bind_eq_ok, Except.pure_eq_ok] at h
    obtain ⟨types', htypes', data, hdata, rfl⟩ := h
    obtain rfl := Except.ok.inj (hplaced.symm.trans htypes')
    constructor
    · rw [tableIn_setPayload, if_pos hplace]
      exact decodeTable_encodeTable hdata
    · rw [tableIn_setPayload, if_neg (findIdx?_isNamed_ne (by decide) hplace)]

/-- Attributes whose names could be read once are found by the same names later. -/
theorem find?_of_keeps (h : p.Keeps q)
    (hread : ∀ a ∈ attributes, ∃ name, p.utf8 a.nameIndex = .ok name) (name : String) :
    attributes.findIdx? (Attribute.isNamed q name) =
      attributes.findIdx? (Attribute.isNamed p name) ∧
    Attribute.find? attributes q name = Attribute.find? attributes p name := by
  -- The index of the name reads as before, so the same attributes are named so.
  have hsame : ∀ a ∈ attributes.toList, a.isNamed q name = a.isNamed p name := by
    intro a ha
    obtain ⟨n, hn⟩ := hread a (Array.mem_toList_iff.1 ha)
    simp only [Attribute.isNamed, hn, h.utf8 hn]
  obtain ⟨l⟩ := attributes
  constructor
  · rw [List.findIdx?_toArray, List.findIdx?_toArray, findIdx?_congr hsame]
  · rw [Attribute.find?, Attribute.find?, List.find?_toArray, List.find?_toArray,
      List.find?_congr hsame]

/-- Where names are kept, the same tables are found. -/
theorem tableIn_of_keeps (h : p.Keeps q)
    (hread : ∀ a ∈ attributes, ∃ name, p.utf8 a.nameIndex = .ok name) (name : String) :
    tableIn attributes q name = tableIn attributes p name := by
  rw [tableIn, tableIn, (find?_of_keeps h hread name).2]

/-- What becomes of the tables of a body whose types are mapped. -/
theorem Ready.tableIn_replaceLocals {naming : LocalPolicy} {code code' : Code} (hp : s.Ready p)
    (hread : ∀ a ∈ code.attributes, ∃ name, s.source.utf8 a.nameIndex = .ok name)
    (h : s.replaceLocals naming code p = .ok code' q) (hfinal : q.Extends final)
    {types : Array LocalVariable}
    (htypes : tableIn code.attributes s.source "LocalVariableTypeTable" = .ok types) :
    ∃ table table' given,
      tableIn code.attributes s.source "LocalVariableTable" = .ok table ∧
      tableIn code'.attributes final "LocalVariableTable" = .ok table' ∧
      TableNamed naming s.params code.code.length final table table' given ∧
      tableIn code'.attributes final "LocalVariableTypeTable" =
        .ok (types.map (nameType given)) := by
  have hkeeps : s.source.Keeps final := hp.keeps.trans
    (((onlyInterns_replaceLocals s _ _ _ _ _ h).coherent hp.coherent).2.trans hfinal).keeps
  have hplaces := fun name => (find?_of_keeps hkeeps hread name).1
  have htables := tableIn_of_keeps hkeeps hread
  obtain ⟨table, r, p₁, htable, hr, h⟩ := replaceLocals_ok h
  rw [tableAt_findIdx?] at htable
  rw [← htables] at htypes
  obtain ⟨hp₁, -⟩ := (onlyInterns_renameTable _ _ _ _ _ _ _ hr).coherent hp.coherent
  rcases h with ⟨rfl, rfl, rfl⟩ |
    ⟨table', given, data, attributes, attributes', rfl, hdata, hput, hname, rfl⟩
  -- Nothing was renamed, so the tables are those of the source.
  · refine ⟨table, table, ∅, htable, (htables _).trans htable, hp.renameTable hr hfinal, ?_⟩
    have hnone : nameType ∅ = id := funext fun t => by simp [nameType]
    rw [htypes, hnone, Array.map_id]
  -- The new table was put first, and after that the types were given its names.
  · rw [← hplaces] at hput hname
    obtain ⟨htable', hothers⟩ := tableIn_putTable hp₁ hput hfinal
    obtain ⟨hplace, htypes'⟩ := hothers "LocalVariableTypeTable" (by decide)
    rw [← hplace] at hname
    obtain ⟨hnamed, hkept⟩ := tableIn_nameTypes hname (htypes'.trans htypes)
    have hext := ((onlyInterns_putTable _ _ _ _ _ _ hput).coherent hp₁).2
    refine ⟨table, table', given, htable, ?_, hp.renameTable hr (hext.trans hfinal), hnamed⟩
    rw [hkept, htable', decodeTable_encodeTable hdata]

/-! ### Types in tables -/

/-- Stack map frames are the only attributes that may be left out. -/
theorem find?_keptAttributes {settings : RelabelSettings}
    (hframes : name ∉ ["StackMapTable", "StackMap"]) :
    (keptAttributes settings p attributes).find? (Attribute.isNamed p name) =
      Attribute.find? attributes p name := by
  unfold keptAttributes withoutFrames
  rw [Attribute.find?, ← Array.find?_toList]
  split
  · rw [List.find?_filter]
    refine List.find?_congr fun a _ => ?_
    -- An attribute that is named so is none of the frames.
    cases hnamed : a.isNamed p name with
    | false => simp
    | true =>
      have hname := Attribute.isNamed_iff.1 hnamed
      simpa [Attribute.isNamed, hname] using hframes
  · rfl

/-- An attribute found by its name is patched into the one found by this name later. -/
theorem rel_find?_patched {depth : Nat} (name : String)
    (hframes : name ∉ ["StackMapTable", "StackMap"])
    (h : List.Forall₂ (s.Patched final depth) (keptAttributes s.settings s.source attributes)
      attributes'.toList) :
    Option.Rel (s.Patched final depth) (Attribute.find? attributes s.source name)
      (Attribute.find? attributes' s.source name) := by
  rw [← find?_keptAttributes hframes, Attribute.find?, ← Array.find?_toList]
  refine rel_find? ?_ h
  rintro a _ ⟨_, data, _, _, -, -, -, -, rfl⟩
  rfl

/-- The names of patched attributes can be read. -/
theorem exists_utf8_of_patched {depth : Nat}
    (h : List.Forall₂ (s.Patched final depth) (keptAttributes s.settings s.source attributes)
      attributes'.toList) {a' : Attribute} (ha' : a' ∈ attributes') :
    ∃ name, s.source.utf8 a'.nameIndex = .ok name := by
  obtain ⟨a, -, name, data, _, _, hname, -, -, -, rfl⟩ :=
    exists_of_mem_forall₂ h.flip (Array.mem_toList_iff.2 ha')
  exact ⟨name, hname⟩

/-- A table whose payload is patched as a table has its types mapped. -/
theorem tableIn_patched {depth : Nat} (name : String) {f : String → String}
    (hframes : name ∉ ["StackMapTable", "StackMap"])
    (hpatch : ∀ nested data, s.patchPayload nested name data = patchTable (s.mapText f) data)
    (h : List.Forall₂ (s.Patched final depth) (keptAttributes s.settings s.source attributes)
      attributes'.toList) :
    ∃ table table', tableIn attributes s.source name = .ok table ∧
      tableIn attributes' s.source name = .ok table' ∧
      List.Forall₂ (Retyped f s.source final) table.toList table'.toList := by
  have hfind := rel_find?_patched name hframes h
  unfold tableIn
  generalize ha : Attribute.find? attributes s.source name = found,
    Attribute.find? attributes' s.source name = found' at hfind ⊢
  -- Either there is no such attribute before and after, or one that was patched as a table.
  cases hfind with
  | none => exact ⟨#[], #[], rfl, rfl, .nil⟩
  | some hpatched =>
    obtain ⟨name', data, p, q, hname, hp, hrun, hext, rfl⟩ := hpatched
    have hnamed := Attribute.isNamed_iff.1 (Array.find?_some ha)
    obtain rfl := Except.ok.inj (hname.symm.trans hnamed)
    rw [hpatch] at hrun
    exact hp.patchTable hrun hext

end Scope

/-! ### Bodies -/

open LocalVariable

/-- An entry as it is named: it has its old name, its new type and its slot. -/
structure LocalVariable.Typed (names : Renaming) (p q : Pool) (v : LocalVariable)
    (e : LocalEntry) : Prop where
  name : q.utf8 v.nameIndex = .ok e.name
  desc : ∃ old, p.utf8 v.descIndex = .ok old ∧ e.desc = names.mapDescriptor old
  index : e.index = v.index

/-- A table of local variables under new names, given the slots and new types of parameters and the
length of the body. The entries come first, and the parameters behind them that had no entry from
the start of the method. -/
structure TableRenamed (names : Renaming) (naming : LocalPolicy) (params : List (UInt16 × String))
    (length : Nat) (p q : Pool) (table table' : Array LocalVariable) : Prop where
  entries : ∃ old, List.Forall₂ (Typed names p q) table.toList old ∧
    LocalVariable.entries q table' =
      .ok (naming.renamed (old ++ (withoutEntry params table).map .ofParam))
  ranges : table'.toList.map Scope.rangeOf = table.toList.map Scope.rangeOf ++
    (withoutEntry params table).map fun (slot, _) => ((0 : UInt16), length.toUInt16, slot)
  params : ∀ slot type, (slot, type) ∈ params → ∃ v ∈ table', v.startPc = 0 ∧ v.index = slot

/-- A generic type of a local variable under its new name. The name is that of the entry it had its
name from, where ranges and slots tell the entries of the table of names apart. -/
structure TypeRenamed (names : Renaming) (p q : Pool) (table table' : Array LocalVariable)
    (t t' : LocalVariable) : Prop where
  range : Scope.rangeOf t' = Scope.rangeOf t
  type : ∃ old, p.utf8 t.descIndex = .ok old ∧ q.utf8 t'.descIndex = .ok (names.mapSignature old)
  name : (table.toList.map Scope.rangeOf).Nodup → t.NamedAfter p table → t'.NamedAfter q table'

/-- The tables of a body under new names, as the pools before and after read. -/
def Code.TablesRenamed (names : Renaming) (naming : LocalPolicy) (params : List (UInt16 × String))
    (p q : Pool) (code code' : Code) : Prop :=
  ∃ table table' types types',
    tableIn code.attributes p "LocalVariableTable" = .ok table ∧
    tableIn code'.attributes q "LocalVariableTable" = .ok table' ∧
    TableRenamed names naming params code.code.length p q table table' ∧
    tableIn code.attributes p "LocalVariableTypeTable" = .ok types ∧
    tableIn code'.attributes q "LocalVariableTypeTable" = .ok types' ∧
    List.Forall₂ (TypeRenamed names p q table table') types.toList types'.toList

/-! ### From one pass to both -/

section Retyped

variable {f : String → String} {table table₁ table' : Array LocalVariable}

/-- A new type leaves the range of a variable alone. -/
theorem LocalVariable.Retyped.rangeOf_eq {v v' : LocalVariable} (h : Retyped f p q v v') :
    Scope.rangeOf v' = Scope.rangeOf v := by
  obtain ⟨_, rfl⟩ := h.eq_with
  rfl

/-- It leaves the name alone. -/
theorem LocalVariable.Retyped.nameIndex_eq {v v' : LocalVariable} (h : Retyped f p q v v') :
    v'.nameIndex = v.nameIndex := by
  obtain ⟨_, rfl⟩ := h.eq_with
  rfl

/-- So the ranges of a table stay. -/
theorem map_rangeOf_retyped (h : List.Forall₂ (Retyped f p q) table.toList table₁.toList) :
    table₁.toList.map Scope.rangeOf = table.toList.map Scope.rangeOf := by
  have hranges : List.Forall₂ (· = ·) (table₁.toList.map Scope.rangeOf)
      (table.toList.map Scope.rangeOf) := by
    rw [List.forall₂_map_left_iff, List.forall₂_map_right_iff]
    exact h.flip.imp fun _ _ hv => hv.rangeOf_eq
  rwa [List.forall₂_eq_eq_eq] at hranges

/-- Whether a parameter has an entry is for the ranges and slots of entries to say. -/
theorem withoutEntry_congr {params : List (UInt16 × String)}
    (h : table₁.toList.map Scope.rangeOf = table.toList.map Scope.rangeOf) :
    withoutEntry params table₁ = withoutEntry params table := by
  have hany (slot : UInt16) (table : Array LocalVariable) :
      (table.any fun v => v.index = slot && v.startPc = 0) =
        (table.toList.map Scope.rangeOf).any fun range => range.2.2 = slot && range.1 = 0 := by
    rw [List.any_map, Array.any_toList]
    rfl
  simp only [withoutEntry, hany, h]

/-- New types take no entry its name from. -/
theorem LocalVariable.NamedAfter.retyped {g : String → String} {t t₁ : LocalVariable}
    (htable : List.Forall₂ (Retyped f p q) table.toList table₁.toList) (ht : Retyped g p q t t₁)
    (h : t.NamedAfter p table) : t₁.NamedAfter p table₁ := by
  obtain ⟨⟨v, hv, hrange⟩, hall⟩ := h
  constructor
  -- Entries with one range before have one range after, in either direction.
  · obtain ⟨v₁, hv₁, hvv₁⟩ := exists_of_mem_forall₂ htable (Array.mem_toList_iff.2 hv)
    refine ⟨v₁, Array.mem_toList_iff.1 hv₁, ?_⟩
    rw [hvv₁.rangeOf_eq, ht.rangeOf_eq, hrange]
  · intro v₁ hv₁ hrange₁
    obtain ⟨v, hv, hvv₁⟩ := exists_of_mem_forall₂ htable.flip (Array.mem_toList_iff.2 hv₁)
    rw [hvv₁.rangeOf_eq, ht.rangeOf_eq] at hrange₁
    rw [hvv₁.nameIndex_eq, ht.nameIndex_eq]
    exact hall v (Array.mem_toList_iff.1 hv) hrange₁

/-- A table whose types are mapped and whose names are then replaced. -/
theorem TableNamed.tableRenamed {names : Renaming} {naming : LocalPolicy}
    {params : List (UInt16 × String)} {length : Nat} {given : Scope.GivenNames}
    (htyped : List.Forall₂ (Retyped names.mapDescriptor p q) table.toList table₁.toList)
    (h : TableNamed naming params length q table₁ table' given) :
    TableRenamed names naming params length p q table table' := by
  have hranges := map_rangeOf_retyped htyped
  obtain ⟨old, hold, hnew⟩ := h.entries_eq
  -- The ranges are those of the old table, so the same parameters have no entry.
  rw [withoutEntry_congr hranges] at hnew
  refine ⟨⟨old, forall₂_comp ?_ htyped (forall₂_of_mapM_eq_ok hold), hnew⟩, ?_,
    fun slot type hparam => h.exists_of_param hparam⟩
  · intro v v₁ e hv he
    obtain ⟨hname, hdesc, hindex⟩ := entry_eq_ok.1 he
    obtain ⟨type, htype, hread⟩ := hv.type
    refine ⟨hv.nameIndex_eq ▸ hname, ⟨type, htype, ?_⟩, ?_⟩
    · exact Except.ok.inj (hdesc.symm.trans hread)
    · rw [← hindex]
      exact congrArg (·.2.2) hv.rangeOf_eq
  · rw [h.ranges_eq, hranges, withoutEntry_congr hranges]

/-- A generic type that is mapped and then takes over a name. -/
theorem TableNamed.typeRenamed {names : Renaming} {naming : LocalPolicy}
    {params : List (UInt16 × String)} {length : Nat} {given : Scope.GivenNames}
    (hkeeps : p.Keeps q)
    (htyped : List.Forall₂ (Retyped f p q) table.toList table₁.toList)
    (h : TableNamed naming params length q table₁ table' given) {t t₁ : LocalVariable}
    (ht : Retyped names.mapSignature p q t t₁) :
    TypeRenamed names p q table table' t (Scope.nameType given t₁) where
  range := (Scope.rangeOf_nameType given t₁).trans ht.rangeOf_eq
  type := by
    obtain ⟨type, htype, hread⟩ := ht.type
    refine ⟨type, htype, ?_⟩
    unfold Scope.nameType
    -- An entry that is given a name keeps its type, as one that is not does.
    split
    · exact hread
    · exact hread
  name hkeys hnamed := by
    rw [← map_rangeOf_retyped htyped] at hkeys
    exact h.namedAfter hkeys hkeeps (hnamed.retyped htyped ht)

end Retyped

namespace Scope

variable {s : Scope}

/-- The tables of a body under new names. -/
theorem Ready.patchCode_tablesRenamed {naming : LocalPolicy} {depth : Nat} {data data' : Bytes}
    (hp : s.Ready p) (hlocals : s.settings.locals = some naming) (hlength : data.length ≤ depth)
    (h : s.patchCode (s.renameAttributesTo depth) data p = .ok data' q) (hfinal : q.Extends final) :
    ∃ code code', Code.decode data = .ok code ∧ Code.decode data' = .ok code' ∧
      code.TablesRenamed s.names naming s.params s.source final code' := by
  simp only [Scope.patchCode, hlocals, EStateM.bind_eq_ok, EStateM.ofExcept_eq_ok] at h
  obtain ⟨code, _, ⟨hcode, rfl⟩, attributes, p₁, hrun, code', _, hreplace, hencode, rfl⟩ := h
  obtain ⟨hp₁, hext⟩ := (onlyInterns_renameAttributesTo s depth _ _ _ _ hrun).coherent hp.coherent
  have hext' := ((onlyInterns_replaceLocals s _ _ _ _ _ hreplace).coherent hp₁).2.trans hfinal
  have hready := hp.of_extends hp₁ hext
  refine ⟨code, code', hcode, Code.decode_encode hencode, ?_⟩
  cases depth with
  | zero =>
    -- There is no body in an empty payload.
    obtain rfl := List.length_eq_zero_iff.1 (Nat.le_zero.1 hlength)
    cases hcode
  | succ depth =>
    have hpatched := hp.forall₂_patched hrun hext'
    obtain ⟨table, table₁, htable, htable₁, htyped⟩ :=
      tableIn_patched "LocalVariableTable" (by decide) (fun _ _ => rfl) hpatched
    obtain ⟨types, types₁, htypes, htypes₁, htyped'⟩ :=
      tableIn_patched "LocalVariableTypeTable" (by decide) (fun _ _ => rfl) hpatched
    obtain ⟨table₂, table', given, htable₂, htable', hnamed, htypes'⟩ :=
      hready.tableIn_replaceLocals (fun a ha => exists_utf8_of_patched hpatched ha) hreplace hfinal
        htypes₁
    obtain rfl := Except.ok.inj (htable₁.symm.trans htable₂)
    refine ⟨table, table', types, _, htable, htable', hnamed.tableRenamed htyped, htypes, htypes',
      ?_⟩
    rw [Array.toList_map, List.forall₂_map_right_iff]
    exact htyped'.imp fun _ _ ht =>
      hnamed.typeRenamed (hp.keeps.trans (hext.trans hext').keeps) htyped ht

end Scope

/-! ### Methods -/

/-- The local variables of a method with a body under new names, as the pools before and after
read. -/
def MemberInfo.LocalsRenamed (names : Renaming) (naming : LocalPolicy) (p q : Pool)
    (m m' : MemberInfo) : Prop :=
  ∀ desc types, m.desc p = .ok desc → Descriptor.method? desc = some types →
    (Attribute.find? m.attributes p "Code").isSome →
    ∃ code code', m.code p = .ok (some code) ∧ m'.code q = .ok (some code') ∧
      code.TablesRenamed names naming
        ((Descriptor.slotsFrom m.access.firstSlot types.params).map names.mapSlot) p q code'

/-- The variables of a method are named as they should be. -/
theorem Scope.Ready.localsRenamed {s : Scope} {naming : LocalPolicy} {m m' : MemberInfo}
    (hp : s.Ready p) (hlocals : s.settings.locals = some naming)
    (h : s.renameMember .method m p = .ok m' q) (hfinal : q.Extends final) :
    m.LocalsRenamed s.names naming s.source final m' := by
  intro desc types hdesc htypes hcode
  obtain ⟨p', params, hp', hparams, hattributes, hbecomes⟩ := hp.renameMember h
  have hready : ({ s with params } : Scope).Ready p' := ⟨hp'.coherent, hp'.keeps⟩
  have hext := ((onlyInterns_renameAttributes _ _ _ _ _ hattributes).coherent hp'.coherent).2
  obtain ⟨_, _, -, -, -, -, haccess⟩ := hbecomes final (hext.trans hfinal)
  have hfirst : m'.access.firstSlot = m.access.firstSlot := by
    rw [haccess]
    split
    · exact Access.firstSlot_withVisibility _ _
    · rfl
  have hpatched := hready.forall₂_patched hattributes hfinal
  have hkeeps : s.source.Keeps final := hp'.keeps.trans (hext.trans hfinal).keeps
  have hfind := rel_find?_patched "Code" (by decide) hpatched
  -- The body of the source is found again by its name, which relabeling does not change.
  obtain ⟨a, ha⟩ := Option.isSome_iff_exists.1 hcode
  rw [ha] at hfind
  generalize ha' : Attribute.find? m'.attributes s.source "Code" = found at hfind
  cases hfind with
  | some hbody =>
    obtain ⟨name, data, p₁, q₁, hname, hp₁, hrun, hext₁, rfl⟩ := hbody
    have hnamed := Attribute.isNamed_iff.1 (Array.find?_some ha)
    obtain rfl := Except.ok.inj (hname.symm.trans hnamed)
    obtain ⟨code, code', hdecode, hdecode', hrenamed⟩ :=
      hp₁.patchCode_tablesRenamed hlocals (length_le_depth (Array.mem_of_find?_eq_some ha)) hrun
        hext₁
    rw [hparams rfl (by rw [hlocals]; rfl) desc hdesc, Renaming.slotsOfParameters_eq _ _ htypes,
      hfirst] at hrenamed
    rw [← (find?_of_keeps hkeeps (fun _ h => exists_utf8_of_patched hpatched h) _).2] at ha'
    refine ⟨code, code', ?_, ?_, hrenamed⟩
    · simp only [MemberInfo.code, ha, hdecode]
      rfl
    · simp only [MemberInfo.code, ha', hdecode']
      rfl

/-! ### Classes -/

namespace ClassFile

variable {names : Renaming} {settings : RelabelSettings} {c c' : ClassFile}

/-- A relabeling that renames local variables keeps the tables of every body coherent, in a class
whose slots have indices. -/
theorem localsRenamed_of_relabel {data : Bytes} {naming : LocalPolicy}
    (hdecode : decode data = .ok c) (hsize : c.pool.size ≤ 65536)
    (hlocals : settings.locals = some naming) (h : c.relabel names settings = .ok c') :
    List.Forall₂ (MemberInfo.LocalsRenamed names naming c.pool c'.pool)
      c.methods.toList c'.methods.toList ∧
    ∀ i text, c.pool.utf8 i = .ok text → c'.pool.utf8 i = .ok text := by
  have hcoherent := coherent_of_decode hdecode hsize
  obtain ⟨thisName, bootstraps, d, p, p₁, p₂, p₃, hname, -, hpool, hsteps, hc'⟩ := relabel_ok h
  have hp : (c.scope names settings thisName).Finished bootstraps p :=
    Scope.mapPool_ok hcoherent hpool
  -- The constants are finished before the methods are renamed, and stay finished.
  obtain ⟨⟨hp₁, -⟩, ⟨-, hext₂⟩, -⟩ := hsteps.ready hp.ready
  refine ⟨?_, fun i text => (hp.of_interns hsteps.interns_all).ready.keeps.utf8⟩
  rw [hc']
  refine hp₁.forall₂_mapM (fun m _ => Scope.onlyInterns_renameMember _ _ m) ?_ hsteps.methods hext₂
  intro m _ p m' q hp hm hext
  exact hp.localsRenamed hlocals hm hext

end ClassFile

/-! ### A reserved word as the name of a parameter -/

/-- A name that is reserved is replaced by a type letter and a number. -/
theorem LocalPolicy.rename_if : rename {} [⟨"if", "I", 0⟩] = [some "i0"] := by
  have hkept : keptNames {} [⟨"if", "I", 0⟩] = {} := by
    have : isUnusable {} "if" = true := by decide +kernel
    simp [keptNames, this]
  have hfree : ({} : Names).nextName? 0 "i0" = none :=
    Names.nextName?_eq_none.2 ⟨by decide +kernel, fun slot hslot => by simp at hslot⟩
  have hmade : Step {} [⟨"if", "I", 0⟩] (keptNames {} [⟨"if", "I", 0⟩]) ⟨"if", "I", 0⟩
      (some "i0") (Names.give {} 0 "i0") := by
    rw [hkept]
    exact .make (by decide +kernel) Std.HashMap.getElem?_empty rfl (.stop hfree)
  exact (Run.eq_rename (.next hmade .done)).symm

namespace ClassFile

open Pool Scope

/-- A body with one entry in its table of local variables. -/
def reservedData : Bytes :=
  [0, 0, 0, 1, 0, 0, 0, 1, 0xb1, 0, 0, 0, 1, 0, 5, 0, 0, 0, 12, 0, 1, 0, 0, 0, 1, 0, 6, 0, 7, 0, 0]

/-- A static method that takes a number, with the attributes given. -/
def reservedMethod (attributes : Array Attribute) : MemberInfo :=
  { access := ⟨9⟩, nameIndex := 1, descIndex := 3, attributes }

/-- The class `A` with a static method that takes a number, whose name in the table of local
variables is a reserved word. -/
def reserved : ClassFile :=
  { pool := { slots := #[.unusable, .utf8 "A", .ofClass 1, .utf8 "(I)V", .utf8 "Code",
      .utf8 "LocalVariableTable", .utf8 "if", .utf8 "I"] }
    access := ⟨0x21⟩
    thisClass := 2
    superClass := 0
    methods := #[reservedMethod #[{ nameIndex := 4, data := reservedData }]] }

/-- The binary form of `reserved`. -/
def reservedBytes : Bytes :=
  [0xca, 0xfe, 0xba, 0xbe, 0, 0, 0, 52,
    0, 8, 1, 0, 1, 65, 7, 0, 1, 1, 0, 4, 40, 73, 41, 86, 1, 0, 4, 67, 111, 100, 101,
    1, 0, 18, 76, 111, 99, 97, 108, 86, 97, 114, 105, 97, 98, 108, 101, 84, 97, 98, 108, 101,
    1, 0, 2, 105, 102, 1, 0, 1, 73,
    0, 33, 0, 2, 0, 0, 0, 0, 0, 0,
    0, 1, 0, 9, 0, 1, 0, 3, 0, 1, 0, 4, 0, 0, 0, 31] ++ reservedData ++ [0, 0]

theorem decode_reservedBytes : decode reservedBytes = .ok reserved := rfl

/-- The body of the method of `reserved`, given the index of the name in its table. -/
def reservedBody (i : UInt16) : Code :=
  { maxStack := 0, maxLocals := 1, code := [0xb1], attributes := #[
      { nameIndex := 5, data := Bytes.ofUInt16 1 ++ LocalVariable.encode ⟨0, 1, i, 7, 0⟩ }] }

/-- The scope of the class `reserved`. -/
def reservedScope : Scope :=
  reserved.scope {} { locals := some {} } "A"

/-- The scope of the method of `reserved`. -/
def reservedMethodScope : Scope :=
  { reservedScope with params := [(0, "I")] }

section

variable {i : UInt16} {q : Pool} (hi : internText "i0" reserved.pool = .ok i q)
include hi

/-- The variable gets the name that is searched for. -/
theorem renameTable_reserved :
    reservedMethodScope.renameTable {} 1 #[⟨0, 1, 6, 7, 0⟩] reserved.pool =
      .ok (some (#[⟨0, 1, i, 7, 0⟩], ({} : GivenNames).insert (0, 1, 0) i)) q := by
  have hslots : localSlots #[⟨0, 1, 6, 7, 0⟩] reserved.pool =
      .ok [⟨"if", "I", 0⟩] reserved.pool := rfl
  have hparams : reservedMethodScope.unnamedParams #[⟨0, 1, 6, 7, 0⟩] = [] := by cbv
  simp only [renameTable, EStateM.bind_of_eq_ok hslots, hparams, List.map_nil, List.append_nil,
    LocalPolicy.rename_if]
  simp only [nameEntries, List.zip_cons_cons, List.zip_nil_right, List.all_cons,
    Option.isNone_some, Bool.false_and, Bool.false_eq_true, if_false, EStateM.bind_eq_ok]
  exact ⟨_, q, ⟨i, q, hi, rfl⟩, rfl⟩

/-- The body gets the table with that name. -/
theorem replaceLocals_reserved :
    reservedMethodScope.replaceLocals {} (reservedBody 6) reserved.pool =
      .ok (reservedBody i) q := by
  -- There is a table of local variables, and none of generic types.
  have hplace : (reservedBody 6).attributes.findIdx?
      (Attribute.isNamed reservedMethodScope.source "LocalVariableTable") = some 0 := by
    decide +kernel
  have hplace' : (reservedBody 6).attributes.findIdx?
      (Attribute.isNamed reservedMethodScope.source "LocalVariableTypeTable") = none := by
    decide +kernel
  simp only [replaceLocals, EStateM.bind_eq_ok, EStateM.ofExcept_eq_ok, hplace, hplace']
  refine ⟨#[⟨0, 1, 6, 7, 0⟩], _, ⟨rfl, rfl⟩, _, q, renameTable_reserved hi, ?_⟩
  simp only [EStateM.bind_eq_ok, EStateM.ofExcept_eq_ok, EStateM.pure_eq_ok]
  refine ⟨_, _, ⟨rfl, rfl⟩, _, _, rfl, _, _, ⟨rfl, rfl⟩, ?_, rfl⟩
  simp only [setPayload, reservedBody, List.modify_toArray, List.modify_zero_cons,
    List.flatMap_singleton]
  rfl

/-- The payload is patched, since there is nothing else to rename in it. -/
theorem exists_patchCode_reserved (depth : Nat) :
    ∃ data, reservedMethodScope.patchCode (reservedMethodScope.renameAttributesTo (depth + 1))
      reservedData reserved.pool = .ok data q := by
  have hlocals : reservedMethodScope.settings.locals = some {} := rfl
  have hattributes : reservedMethodScope.renameAttributesTo (depth + 1) (reservedBody 6).attributes
      reserved.pool = .ok (reservedBody 6).attributes reserved.pool := by
    cbv
  simp only [patchCode, hlocals, EStateM.bind_eq_ok, EStateM.ofExcept_eq_ok]
  exact ⟨_, reservedBody 6, _, ⟨rfl, rfl⟩, (reservedBody 6).attributes, reserved.pool, hattributes,
    reservedBody i, q, replaceLocals_reserved hi, rfl, rfl⟩

/-- So is the attribute. -/
theorem exists_renameAttributes_reserved :
    ∃ attributes, reservedMethodScope.renameAttributes
      #[{ nameIndex := 4, data := reservedData }] reserved.pool = .ok attributes q := by
  obtain ⟨data, hdata⟩ := exists_patchCode_reserved hi 30
  refine ⟨#[{ nameIndex := 4, data }], ?_⟩
  simp only [renameAttributes, renameAttributesTo, Array.mapM_eq_mapM_toList, EStateM.map_eq_ok]
  refine ⟨[{ nameIndex := 4, data }], ?_, rfl⟩
  -- No attribute is left out, for frames are kept.
  have hkept : (if reservedMethodScope.settings.removeFrames = true then
      Array.filter (fun x => !reservedMethodScope.isFrames x)
        #[{ nameIndex := 4, data := reservedData }]
      else #[{ nameIndex := 4, data := reservedData }]).toList =
        [{ nameIndex := 4, data := reservedData }] := rfl
  rw [hkept]
  simp only [List.mapM_cons, List.mapM_nil, EStateM.bind_eq_ok, EStateM.pure_eq_ok]
  exact ⟨_, q, ⟨"Code", _, rfl, data, q, hdata, rfl, rfl⟩, [], q, ⟨rfl, rfl⟩, rfl, rfl⟩

end

/-- The class is relabeled, since all that is renamed in it is that table. -/
theorem exists_relabel_reserved : ∃ c', reserved.relabel {} { locals := some {} } = .ok c' := by
  obtain ⟨i, q, hi⟩ := @exists_intern (.utf8 "i0") rfl reserved.pool (by decide)
  -- No constant changes, so the pool is as it was.
  have hpool : reservedScope.mapPool #[] reserved.pool = .ok () reserved.pool := by cbv
  obtain ⟨attributes, hrenamed⟩ := exists_renameAttributes_reserved hi
  have hmember : reservedScope.renameMember .method
      (reservedMethod #[{ nameIndex := 4, data := reservedData }]) reserved.pool =
        .ok (reservedMethod attributes) q := by
    simp only [renameMember, EStateM.bind_eq_ok]
    exact ⟨"A", _, rfl, "(I)V", _, rfl, 1, _, rfl, 3, _, rfl, attributes, q, hrenamed, rfl⟩
  have hmethods : reserved.methods.mapM (reservedScope.renameMember .method) reserved.pool =
      .ok #[reservedMethod attributes] q := by
    have : reserved.methods = #[reservedMethod #[{ nameIndex := 4, data := reservedData }]] := rfl
    simp only [this, List.mapM_toArray, List.mapM_cons, List.mapM_nil, EStateM.map_eq_ok,
      EStateM.bind_eq_ok, EStateM.pure_eq_ok]
    exact ⟨_, ⟨_, q, hmember, [], q, ⟨rfl, rfl⟩, rfl, rfl⟩, rfl⟩
  have hfields : reserved.fields.mapM (reservedScope.renameMember .field) reserved.pool =
      .ok #[] reserved.pool := by cbv
  have hattributes : reservedScope.renameAttributes reserved.attributes q = .ok #[] q :=
    congrFun (renameAttributes_empty _) q
  have hbody : reservedScope.renameBody reserved reserved.pool =
      .ok { reserved with methods := #[reservedMethod attributes] } q := by
    simp only [renameBody, EStateM.bind_eq_ok]
    exact ⟨#[], reserved.pool, hfields, _, q, hmethods, #[], q, hattributes, rfl⟩
  exact ⟨_, relabel_of_steps rfl rfl hpool hbody⟩

/-- The reserved name of the variable is replaced, and all old texts are still there. -/
theorem localsRenamed_of_relabel_reserved :
    decode reservedBytes = .ok reserved ∧ reserved.pool.size ≤ 65536 ∧
    ∃ c', reserved.relabel {} { locals := some {} } = .ok c' ∧
      List.Forall₂ (MemberInfo.LocalsRenamed {} {} reserved.pool c'.pool)
        reserved.methods.toList c'.methods.toList ∧
      ∀ i text, reserved.pool.utf8 i = .ok text → c'.pool.utf8 i = .ok text := by
  have hsize : reserved.pool.size ≤ 65536 := by decide
  obtain ⟨c', h⟩ := exists_relabel_reserved
  exact ⟨decode_reservedBytes, hsize, c', h,
    localsRenamed_of_relabel decode_reservedBytes hsize rfl h⟩

end ClassFile

end Relabel
