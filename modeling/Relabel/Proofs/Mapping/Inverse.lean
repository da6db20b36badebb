import Mathlib.Data.List.Nodup
import Relabel.Mapping.Renames
import Relabel.Proofs.Maps
import Relabel.Proofs.Mapping.Format
import Relabel.Proofs.Mapping.Tokens

/-!
# Renaming back

The projection of a table from one namespace to another is undone by the projection the other way
round, as long as the table loses nothing: each class has one row, with a name in each namespace
that no other class has there, and the rows of members name only such classes.

Owners and descriptors of member rows are those of the first namespace. They are carried into the
namespaces by the row of each class, and that is what the projections do with class names as well.

## Main results

- `Table.rectangular_of_parse`: every row of a table that was read has a name for each namespace.
- `Table.carries_mapClass`, `Table.carries_classInColumn`: what becomes of a class that has a row.
- `Table.memberName_iff`: the members that a projection renames.
- `Table.project_inverse`: projecting forth and back.
-/

namespace Relabel.Mapping

open Descriptor

/-- The answer for a class that is mapped to a name leads to that name. -/
@[simp]
theorem Nested.getD_answer (name new : String) : (Nested.answer name new).getD name = new := by
  unfold Nested.answer
  split
  · next heq => exact heq.symm
  · rfl

/-! ### Rows -/

namespace Table

variable {table : Table}

/-- The rows of the members of a kind. -/
def members (table : Table) : MemberKind → List MemberNames
  | .field => table.fields
  | .method => table.methods

/-- Every row has a name for each namespace. -/
structure Rectangular (table : Table) : Prop where
  classes : ∀ row ∈ table.classes, row.length = table.namespaces.length
  members : ∀ kind, ∀ row ∈ table.members kind, row.names.length = table.namespaces.length

/-- A table that was read has rows of the right width only. -/
theorem rectangular_of_parse {text : String} (h : Table.parse text = .ok table) :
    table.Rectangular := by
  unfold Table.parse at h
  split at h
  · cases h
  · simp only [Except.bind_eq_ok, Except.pure_eq_ok] at h
    obtain ⟨namespaces, -, rows, hrows, rfl⟩ := h
    -- A row is kept only where it is as wide as the header.
    have hwidth : ∀ row ∈ rows, row.HasWidth namespaces.length := by
      intro row hrow
      obtain ⟨line, -, hread⟩ := exists_of_mem_forall₂ (forall₂_of_mapM_eq_ok hrows).flip hrow
      exact (readRow_eq_ok_iff.1 hread).1
    constructor
    · intro names hnames
      obtain ⟨row, hrow, hmatch⟩ := List.mem_filterMap.1 hnames
      cases row with
      | ofClass =>
        cases hmatch
        exact hwidth _ hrow
      | ofField | ofMethod => cases hmatch
    · intro kind member hmember
      cases kind with
      | field =>
        obtain ⟨row, hrow, hmatch⟩ := List.mem_filterMap.1 hmember
        cases row with
        | ofField =>
          cases hmatch
          exact hwidth _ hrow
        | ofClass | ofMethod => cases hmatch
      | method =>
        obtain ⟨row, hrow, hmatch⟩ := List.mem_filterMap.1 hmember
        cases row with
        | ofMethod =>
          cases hmatch
          exact hwidth _ hrow
        | ofClass | ofField => cases hmatch

/-- A namespace is found among those of the table. -/
theorem column_lt {name : String} {column : Nat} (h : table.column name = .ok column) :
    column < table.namespaces.length := by
  unfold Table.column at h
  split at h
  · next i hi =>
    obtain rfl := Except.ok.inj h
    obtain ⟨hlt, -⟩ := List.idxOf?_eq_some_iff.1 hi
    exact hlt
  · cases h

/-! ### Tables that lose nothing -/

/-- The table has a row for the class that has a name in the namespace of a column. -/
def Lists (table : Table) (column : Nat) (name : String) : Prop :=
  ∃ row ∈ table.classes, row.getD column "" = name

instance (table : Table) (column : Nat) (name : String) : Decidable (table.Lists column name) :=
  inferInstanceAs (Decidable (∃ row ∈ table.classes, row.getD column "" = name))

/-- The key of a member in the namespace of a column. -/
def keyIn (table : Table) (column : Nat) (row : MemberNames) : MemberKey :=
  let into := classInColumn table.primary column
  { owner := (into row.owner).getD row.owner
    name := row.names.getD column ""
    desc := Descriptor.rename into row.desc }

/-- A table that loses nothing between two of its columns. -/
structure Lossless (table : Table) (source target : Nat) : Prop where
  classCells : ∀ row ∈ table.classes, "" ∉ row
  memberCells : ∀ kind, ∀ row ∈ table.members kind, "" ∉ row.names
  semicolons : ∀ row ∈ table.classes, ∀ name ∈ row, ';' ∉ name.toList
  /-- No two classes have one name in a namespace. -/
  unique : ∀ column < table.namespaces.length, (table.classes.map (·.getD column "")).Nodup
  owners : ∀ kind, ∀ row ∈ table.members kind, table.Lists 0 row.owner
  tokens : ∀ kind, ∀ row ∈ table.members kind, ∀ name ∈ tokens row.desc, table.Lists 0 name
  /-- No two members of a kind have one key in either of the two namespaces. -/
  keys : ∀ kind, ∀ column ∈ [source, target],
    ((table.members kind).map (table.keyIn column)).Nodup

theorem Lossless.symm {source target : Nat} (h : table.Lossless source target) :
    table.Lossless target source :=
  { h with keys := fun kind column hcolumn => h.keys kind column (by simpa [or_comm] using hcolumn) }

variable {source target i j k column : Nat} {f g : ClassMap} {r : Renames} {name desc : String}

/-- A cell of a wide enough row is one of its names. -/
theorem getD_mem {row : List String} (h : column < row.length) : row.getD column "" ∈ row := by
  rw [List.getD_eq_getElem?_getD, List.getElem?_eq_getElem h]
  exact List.getElem_mem h

/-! ### Classes -/

/-- A map takes each class from its name in one column to that in another. -/
def Carries (table : Table) (i j : Nat) (f : ClassMap) : Prop :=
  ∀ row ∈ table.classes, (f (row.getD i "")).getD (row.getD i "") = row.getD j ""

/-- The image of a class is its name in the other column. -/
theorem Carries.image (hf : table.Carries i j f) {row : List String} (hrow : row ∈ table.classes) :
    f.image (row.getD i "").toList = (row.getD j "").toList := by
  rw [ClassMap.image_toList, hf row hrow]

/-- Maps that carry the listed classes alike rename a descriptor of such classes alike. -/
theorem Carries.rename_eq (hf : table.Carries i j f) (hg : table.Carries i j g)
    (htokens : ∀ name ∈ tokens desc, table.Lists i name) :
    Descriptor.rename f desc = Descriptor.rename g desc := by
  refine rename_congr fun name hname => ?_
  obtain ⟨row, hrow, rfl⟩ := htokens name hname
  rw [hf row hrow, hg row hrow]

/-- A map of classes that is made of all rows takes each class where its row says. -/
theorem getElem?_ofRows (h : table.Lossless source target)
    (hcolumn : column < table.namespaces.length) {α : Type}
    {entry : List String → Option (String × α)} (value : List String → α)
    (hentry : ∀ row ∈ table.classes, entry row = some (row.getD column "", value row))
    {row : List String} (hrow : row ∈ table.classes) :
    (Std.HashMap.ofList (table.classes.filterMap entry))[row.getD column ""]? =
      some (value row) := by
  -- No row is left out, and the names in the column differ.
  have hentries : table.classes.filterMap entry =
      table.classes.map fun row => (row.getD column "", value row) := by
    rw [← List.filterMap_eq_map]
    exact List.filterMap_congr hentry
  rw [hentries, getElem?_ofList_iff]
  · exact List.mem_map.2 ⟨row, hrow, rfl⟩
  · rw [List.map_map]
    exact h.unique column hcolumn

section

variable (hrect : table.Rectangular) (h : table.Lossless source target)

include hrect h

/-- No cell of a class is empty. -/
theorem cell_ne_empty (hcolumn : column < table.namespaces.length) {row : List String}
    (hrow : row ∈ table.classes) : row.getD column "" ≠ "" := by
  intro heq
  have hmem : row.getD column "" ∈ row := getD_mem (by rwa [hrect.classes row hrow])
  exact h.classCells row hrow (heq ▸ hmem)

theorem not_mem_cell (hcolumn : column < table.namespaces.length) {row : List String}
    (hrow : row ∈ table.classes) : ';' ∉ (row.getD column "").toList :=
  h.semicolons row hrow _ (getD_mem (by rwa [hrect.classes row hrow]))

/-- No name of a member is empty. -/
theorem name_ne_empty (hcolumn : column < table.namespaces.length) {kind : MemberKind}
    {row : MemberNames} (hrow : row ∈ table.members kind) : row.names.getD column "" ≠ "" := by
  intro heq
  have hmem : row.names.getD column "" ∈ row.names :=
    getD_mem (by rwa [hrect.members kind row hrow])
  exact h.memberCells kind row hrow (heq ▸ hmem)

/-- The rows carry owners and descriptors out of the first namespace. -/
theorem carries_classInColumn (hcolumn : column < table.namespaces.length) :
    table.Carries 0 column (classInColumn table.primary column) := by
  intro row hrow
  -- The row is found by its first name.
  have hrowOf : table.primary[row.getD 0 ""]? = some row := by
    refine getElem?_ofRows h (by omega) id (fun row hrow => ?_) hrow
    have hwidth := hrect.classes row hrow
    cases row with
    | nil => simp at hwidth; omega
    | cons first rest => rfl
  -- Its name in the other column is not empty, so it is the answer.
  have hne := cell_ne_empty hrect h hcolumn hrow
  have hanswer : classInColumn table.primary column (row.getD 0 "") =
      Nested.answer (row.getD 0 "") (row.getD column "") := by
    refine Nested.rename_of_own ?_
    simp only [hrowOf, if_neg hne]
  rw [hanswer, Nested.getD_answer]

end

/-! ### Projections -/

/-- A projection that asks for descriptors of fields. -/
structure Projects (table : Table) (i j : Nat) (r : Renames) : Prop where
  classes : r.classes = .ofList (table.classes.filterMap (namePair i j))
  fields : r.fields = .ofList
    (table.fields.filterMap (memberEntry (classInColumn table.primary i) i j))
  methods : r.methods = .ofList
    (table.methods.filterMap (memberEntry (classInColumn table.primary i) i j))
  ignoreFieldDesc : r.ignoreFieldDesc = false

/-- A table is projected between any two of its namespaces. -/
theorem exists_project {sourceName targetName : String} (hi : table.column sourceName = .ok i)
    (hj : table.column targetName = .ok j) :
    ∃ r, table.project sourceName targetName false = .ok r ∧ table.Projects i j r := by
  unfold Table.project
  rw [hi, hj]
  exact ⟨_, rfl, rfl, rfl, rfl, rfl⟩

/-- The two namespaces of a projection. -/
structure Between (table : Table) (i j : Nat) (r : Renames) : Prop where
  rectangular : table.Rectangular
  lossless : table.Lossless i j
  source_lt : i < table.namespaces.length
  target_lt : j < table.namespaces.length
  projects : table.Projects i j r

namespace Between

variable (h : table.Between i j r)

include h

/-- Every row of a class gives a pair of names, for none of its cells is empty. -/
theorem namePair_eq {row : List String} (hrow : row ∈ table.classes) :
    namePair i j row = some (row.getD i "", row.getD j "") := by
  have hi := cell_ne_empty h.rectangular h.lossless h.source_lt hrow
  have hj := cell_ne_empty h.rectangular h.lossless h.target_lt hrow
  exact if_neg (not_or.2 ⟨hi, hj⟩)

/-- A projection takes each class where its row says. -/
theorem carries_mapClass : table.Carries i j r.mapClass := by
  intro row hrow
  have hget : r.classes[row.getD i ""]? = some (row.getD j "") := by
    rw [h.projects.classes]
    exact getElem?_ofRows h.lossless h.source_lt _ (fun row hrow => h.namePair_eq hrow) hrow
  have hanswer : r.mapClass (row.getD i "") = Nested.answer (row.getD i "") (row.getD j "") := by
    refine Nested.rename_of_own ?_
    rw [hget]
    rfl
  rw [hanswer, Nested.getD_answer]

/-- Every row of a member gives an entry, for none of its names is empty. -/
theorem memberEntry_eq {kind : MemberKind} {row : MemberNames} (hrow : row ∈ table.members kind) :
    memberEntry (classInColumn table.primary i) i j row =
      some (table.keyIn i row, row.names.getD j "") := by
  have hi := name_ne_empty h.rectangular h.lossless h.source_lt hrow
  have hj := name_ne_empty h.rectangular h.lossless h.target_lt hrow
  have hpair : namePair i j row.names = some (row.names.getD i "", row.names.getD j "") :=
    if_neg (not_or.2 ⟨hi, hj⟩)
  rw [memberEntry, hpair]
  rfl

/-- A projection renames the members that have a row. -/
theorem memberName_iff {kind : MemberKind} {key : MemberKey} {new : String} :
    r.memberName kind key = some new ↔
      ∃ row ∈ table.members kind, table.keyIn i row = key ∧ row.names.getD j "" = new := by
  -- Fields and methods are looked up in tables made in one way.
  have hmap : r.memberName kind key = (Std.HashMap.ofList ((table.members kind).filterMap
      (memberEntry (classInColumn table.primary i) i j)))[key]? := by
    cases kind with
    | field =>
      rw [Renames.memberName, Renames.fieldName, h.projects.fields, h.projects.ignoreFieldDesc]
      split
      · next hget => exact hget.symm
      · next hget => exact hget.symm
    | method =>
      rw [Renames.memberName, Renames.methodName, h.projects.methods]
      rfl
  have hentries : (table.members kind).filterMap
      (memberEntry (classInColumn table.primary i) i j) =
        (table.members kind).map fun row => (table.keyIn i row, row.names.getD j "") := by
    rw [← List.filterMap_eq_map]
    exact List.filterMap_congr fun row hrow => h.memberEntry_eq hrow
  -- The keys differ, so the row that is found is the only one with its key.
  have hkeys : (((table.members kind).map fun row =>
      (table.keyIn i row, row.names.getD j "")).map Prod.fst).Nodup := by
    rw [List.map_map]
    exact h.lossless.keys kind i List.mem_cons_self
  rw [hmap, hentries, getElem?_ofList_iff hkeys, List.mem_map]
  simp only [Prod.mk.injEq]

/-- In descriptors, a map that carries classes out of some column and the projection make a map that
carries them further. -/
theorem rename_descriptor {k : Nat} (hf : table.Carries k i f) (hg : table.Carries k j g)
    (htokens : ∀ name ∈ tokens desc, table.Lists k name) :
    r.descriptor (Descriptor.rename f desc) = Descriptor.rename g desc := by
  have hrow : ∀ name, .className name ∈ segments desc.toList →
      ∃ row ∈ table.classes, (row.getD k "").toList = name := by
    intro name hname
    obtain ⟨row, hrow, hcell⟩ := htokens _ (mem_tokens.2 hname)
    exact ⟨row, hrow, by rw [hcell, String.toList_ofList]⟩
  -- Names that are carried once are listed in the column they are carried to.
  refine rename_rename (fun name hname => ?_) fun name hname => ?_
  · obtain ⟨row, hrow, rfl⟩ := hrow name hname
    rw [hf.image hrow]
    exact not_mem_cell h.rectangular h.lossless h.source_lt hrow
  · obtain ⟨row, hrow, rfl⟩ := hrow name hname
    rw [hf.image hrow, hg.image hrow, h.carries_mapClass.image hrow]

end Between

/-- Between two namespaces of a table that loses nothing, the projection back undoes the projection
forth: in the names of classes that the table lists, in descriptors made of these, and in the names
of all members that are renamed. -/
theorem project_inverse {text sourceName targetName : String}
    (hparse : Table.parse text = .ok table) (hi : table.column sourceName = .ok i)
    (hj : table.column targetName = .ok j) (h : table.Lossless i j) :
    ∃ forth back, table.project sourceName targetName false = .ok forth ∧
      table.project targetName sourceName false = .ok back ∧
      (∀ name, table.Lists i name → back.className (forth.className name) = name) ∧
      (∀ desc, (∀ name ∈ tokens desc, table.Lists i name) →
        back.descriptor (forth.descriptor desc) = desc) ∧
      ∀ kind key new, forth.memberName kind key = some new →
        back.memberName kind
          { owner := forth.className key.owner, name := new, desc := forth.descriptor key.desc } =
            some key.name := by
  obtain ⟨forth, hforth, hprojects⟩ := exists_project hi hj
  obtain ⟨back, hback, hprojects'⟩ := exists_project hj hi
  have hrect := rectangular_of_parse hparse
  have hf : table.Between i j forth := ⟨hrect, h, column_lt hi, column_lt hj, hprojects⟩
  have hb : table.Between j i back := ⟨hrect, h.symm, column_lt hj, column_lt hi, hprojects'⟩
  refine ⟨forth, back, hforth, hback, ?_, ?_, ?_⟩
  -- The class in the other column and back stands in the row it came from.
  · rintro _ ⟨row, hrow, rfl⟩
    rw [Renames.className, Renames.className, hf.carries_mapClass row hrow,
      hb.carries_mapClass row hrow]
  · intro desc htokens
    -- Back and forth together carry a column to itself, as the map without rows does.
    have hstay : table.Carries i i fun _ => none := fun _ _ => rfl
    exact (hb.rename_descriptor hf.carries_mapClass hstay htokens).trans (rename_none desc)
  · intro kind key new hnew
    -- The name stands in a row, and the way back looks that row up by its other key.
    obtain ⟨row, hrow, rfl, rfl⟩ := hf.memberName_iff.1 hnew
    have hsource := carries_classInColumn hrect h (column_lt hi)
    have htarget := carries_classInColumn hrect h (column_lt hj)
    refine hb.memberName_iff.2 ⟨row, hrow, ?_, rfl⟩
    obtain ⟨names, hnames, howner⟩ := h.owners kind row hrow
    have hdesc := hf.rename_descriptor hsource htarget (h.tokens kind row hrow)
    rw [keyIn, keyIn, hdesc, ← howner, htarget names hnames, hsource names hnames,
      Renames.className, hf.carries_mapClass names hnames]

/-! ### Two classes that change names -/

/-- Two classes, of which each has in `t` the name that the other has in `s`. -/
def swapText : String :=
  "v1\ts\tt\nCLASS\ta\tb\nCLASS\tb\ta\nFIELD\ta\tLb;\tf\tg\n" ++
    "METHOD\ta\t(Lb;)La;\tm\tn\nMETHOD\ta\t()V\tk\tl\n"

/-- The table that `swapText` holds. -/
def swapTable : Table where
  namespaces := ["s", "t"]
  classes := [["a", "b"], ["b", "a"]]
  fields := [{ owner := "a", desc := "Lb;", names := ["f", "g"] }]
  methods :=
    [ { owner := "a", desc := "(Lb;)La;", names := ["m", "n"] },
      { owner := "a", desc := "()V", names := ["k", "l"] } ]

theorem parse_swapText : Table.parse swapText = .ok swapTable := by decide +kernel

/-- The two columns swap `a` and `b` and lose nothing. -/
theorem lossless_swapTable : swapTable.Lossless 0 1 where
  classCells := by decide
  memberCells kind := by cases kind <;> decide
  semicolons := by decide
  unique := by decide
  owners kind := by cases kind <;> decide
  tokens kind := by cases kind <;> decide +kernel
  keys kind column hcolumn := by
    cases kind with
    | field => exact List.nodup_singleton _
    | method =>
      -- The two methods have different names in either namespace.
      have hnames : (swapTable.methods.map fun row => row.names.getD column "").Nodup := by
        revert column
        decide
      refine List.Nodup.of_map MemberKey.name ?_
      rwa [List.map_map]

/-- Each of the two classes under the name of the other. -/
def swapped : ClassMap := fun name =>
  if name = "a" then some "b" else if name = "b" then some "a" else none

/-- The rows carry `a` to `b` and `b` to `a`. -/
theorem carries_swapped : swapTable.Carries 0 1 swapped := by
  unfold Carries
  decide

/-- The projection forth swaps the two classes, and renames the method `m` of `a`. -/
theorem project_swapTable {forth : Renames} (hs : swapTable.column "s" = .ok 0)
    (ht : swapTable.column "t" = .ok 1)
    (h : swapTable.project "s" "t" false = .ok forth) :
    forth.className "a" = "b" ∧ forth.descriptor "(Lb;)La;" = "(La;)Lb;" ∧
      forth.memberName .method ⟨"a", "m", "(Lb;)La;"⟩ = some "n" := by
  obtain ⟨r, hr, hprojects⟩ := exists_project hs ht
  obtain rfl := Except.ok.inj (h.symm.trans hr)
  have hrect := rectangular_of_parse parse_swapText
  have hbetween : swapTable.Between 0 1 forth :=
    ⟨hrect, lossless_swapTable, by decide, by decide, hprojects⟩
  have htokens : ∀ name ∈ tokens "(Lb;)La;", swapTable.Lists 0 name := by decide +kernel
  refine ⟨hbetween.carries_mapClass ["a", "b"] (by decide), ?_, ?_⟩
  · exact (hbetween.carries_mapClass.rename_eq carries_swapped htokens).trans (by decide +kernel)
  · -- The rows of members are in the first namespace already.
    have hsource := carries_classInColumn hrect lossless_swapTable (show 0 < 2 by decide)
    have hdesc : Descriptor.rename (classInColumn swapTable.primary 0) "(Lb;)La;" = "(Lb;)La;" :=
      (hsource.rename_eq (fun _ _ => rfl) htokens).trans (rename_none _)
    have howner : (classInColumn swapTable.primary 0 "a").getD "a" = "a" :=
      hsource ["a", "b"] (by decide)
    refine hbetween.memberName_iff.2
      ⟨{ owner := "a", desc := "(Lb;)La;", names := ["m", "n"] }, by decide, ?_, rfl⟩
    simp only [keyIn, hdesc, howner]
    rfl

/-- The class `a` is `b` and back, and so its method `m` is `n` of `b` and back. -/
theorem project_inverse_swapTable : ∃ forth back,
    swapTable.project "s" "t" false = .ok forth ∧ swapTable.project "t" "s" false = .ok back ∧
      forth.className "a" = "b" ∧ back.className "b" = "a" ∧
      forth.descriptor "(Lb;)La;" = "(La;)Lb;" ∧ back.descriptor "(La;)Lb;" = "(Lb;)La;" ∧
      forth.memberName .method ⟨"a", "m", "(Lb;)La;"⟩ = some "n" ∧
      back.memberName .method ⟨"b", "n", "(La;)Lb;"⟩ = some "m" := by
  have hs : swapTable.column "s" = .ok 0 := rfl
  have ht : swapTable.column "t" = .ok 1 := rfl
  obtain ⟨forth, back, hforth, hback, hclass, hdescriptor, hmember⟩ :=
    project_inverse parse_swapText hs ht lossless_swapTable
  -- The three round trips, for the class, a descriptor and the method.
  obtain ⟨hnewClass, hnewDesc, hnewName⟩ := project_swapTable hs ht hforth
  have hclass := hclass "a" (by decide)
  have hdescriptor := hdescriptor "(Lb;)La;" (by decide +kernel)
  have hmember := hmember .method _ _ hnewName
  simp only [hnewClass, hnewDesc] at hclass hdescriptor hmember
  exact ⟨forth, back, hforth, hback, hnewClass, hclass, hnewDesc, hdescriptor, hnewName, hmember⟩

end Table

end Relabel.Mapping
