import Relabel.Proofs.Mapping.Inverse

/-!
# Rows of members

The row of a member gives its owner and its descriptor in the first namespace, whatever the
namespaces of a projection are. The projection carries both into its source with the rows of
classes, and so does the projection from the first namespace onto that source: a member is found
under the names that the other projection gives. Where rows of one kind meet under one key, the last
of them counts.

## Main results

- `Table.classInColumn_eq_mapClass`: classes are carried as the other projection renames them.
- `Table.memberName_of_project`: what becomes of the member of a row.
-/

namespace Relabel.Mapping

/-! ### Keys -/

/-- The key of a member row in the namespace of a column, with owner and descriptor renamed by the
projection onto that namespace. -/
def Renames.keyAt (carry : Renames) (column : Nat) (row : MemberNames) : MemberKey where
  owner := carry.className row.owner
  name := row.names.getD column ""
  desc := carry.descriptor row.desc

namespace Table

variable {table : Table} {first source target : String} {i j : Nat} {row : MemberNames}
  {carry r : Renames}

/-- Every namespace of a table has a column. -/
theorem exists_column (h : source ∈ table.namespaces) : ∃ i, table.column source = .ok i := by
  unfold column
  split
  · next i _ => exact ⟨i, rfl⟩
  · next hnone => exact absurd h (List.idxOf?_eq_none_iff.1 hnone)

/-- The first namespace is column zero. -/
theorem column_first (h : table.namespaces.head? = some first) : table.column first = .ok 0 := by
  obtain ⟨rest, hnamespaces⟩ := List.head?_eq_some_iff.1 h
  rw [column, hnamespaces, List.idxOf?_cons, if_pos BEq.rfl]

/-- Where each class has a row of its own, a map that is made of rows by their first names holds
what they have an entry for. -/
theorem getElem?_ofRows_iff {α : Type} {entry : List String → Option (String × α)}
    (hdistinct : (table.classes.map (·.getD 0 "")).Nodup)
    (hentry : ∀ row e, entry row = some e → e.1 = row.getD 0 "") {name : String} {value : α} :
    (Std.HashMap.ofList (table.classes.filterMap entry))[name]? = some value ↔
      ∃ row ∈ table.classes, entry row = some (name, value) := by
  rw [getElem?_ofList_iff, List.mem_filterMap]
  refine List.pairwise_map.2 (List.pairwise_filterMap.2 ?_)
  refine (List.pairwise_map.1 hdistinct).imp fun hne e he e' he' => ?_
  rwa [hentry _ e he, hentry _ e' he']

section

variable (hnames : ∀ row ∈ table.classes, row.getD 0 "" ≠ "")
  (hdistinct : (table.classes.map (·.getD 0 "")).Nodup)

include hnames hdistinct

/-- The first column is looked up by the names in it. -/
theorem getElem?_primary_iff {name : String} {row : List String} :
    table.primary[name]? = some row ↔ row ∈ table.classes ∧ row.getD 0 "" = name := by
  rw [primary, getElem?_ofRows_iff hdistinct]
  · constructor
    · rintro ⟨row, hrow, heq⟩
      cases row with
      | nil => cases heq
      | cons => cases heq; exact ⟨hrow, rfl⟩
    · rintro ⟨hrow, rfl⟩
      -- A row without cells would have an empty first name.
      cases row with
      | nil => exact absurd rfl (hnames [] hrow)
      | cons => exact ⟨_, hrow, rfl⟩
  · intro row e he
    cases row with
    | nil => cases he
    | cons => cases he; rfl

/-- The projection from the first namespace has the rows of classes that do not leave its target
empty. -/
theorem getElem?_classes_eq
    (hclasses : carry.classes = .ofList (table.classes.filterMap (namePair 0 i))) (name : String) :
    carry.classes[name]? = table.primary[name]?.bind fun row =>
      if row.getD i "" = "" then none else some (row.getD i "") := by
  ext new
  rw [hclasses, getElem?_ofRows_iff hdistinct, Option.bind_eq_some_iff]
  · constructor
    · rintro ⟨row, hrow, heq⟩
      obtain ⟨hne, heq⟩ := Option.ite_none_left_eq_some.1 heq
      cases heq
      exact ⟨row, (getElem?_primary_iff hnames hdistinct).2 ⟨hrow, rfl⟩, if_neg (not_or.1 hne).2⟩
    · rintro ⟨row, hget, heq⟩
      obtain ⟨hrow, rfl⟩ := (getElem?_primary_iff hnames hdistinct).1 hget
      obtain ⟨hne, heq⟩ := Option.ite_none_left_eq_some.1 heq
      cases heq
      exact ⟨row, hrow, if_neg (not_or.2 ⟨hnames row hrow, hne⟩)⟩
  · intro row e he
    obtain ⟨-, heq⟩ := Option.ite_none_left_eq_some.1 he
    cases heq
    rfl

/-- Where each row of a class has a name of its own in the first namespace, classes are carried into
a namespace as the projection onto it renames them. -/
theorem classInColumn_eq_mapClass
    (hclasses : carry.classes = .ofList (table.classes.filterMap (namePair 0 i))) :
    classInColumn table.primary i = carry.mapClass := by
  unfold classInColumn Renames.mapClass
  congr 1
  funext name
  -- A row with an empty name is passed over on one side and not in the map on the other, so both
  -- go on to the class around.
  rw [getElem?_classes_eq hnames hdistinct hclasses]
  cases table.primary[name]? with
  | none => rfl
  | some row =>
    rw [Option.bind_some, apply_ite (Option.map (Nested.answer name))]
    rfl

end

/-! ### Members -/

/-- A projection onto declared namespaces is made. Its maps hold the rows of classes and members. -/
theorem exists_project_of_column (hi : table.column source = .ok i)
    (hj : table.column target = .ok j) (ignoreFieldDesc : Bool) :
    ∃ r, table.project source target ignoreFieldDesc = .ok r ∧
      r.classes = .ofList (table.classes.filterMap (namePair i j)) ∧
      ∀ kind key new, (Std.HashMap.ofList ((table.members kind).filterMap
        (memberEntry (classInColumn table.primary i) i j)))[key]? = some new →
          r.memberName kind key = some new := by
  unfold project
  -- Fields are looked up with their descriptor first, so an entry under it is the one that is
  -- found.
  rw [hi, hj]
  refine ⟨_, rfl, rfl, fun kind key new h => ?_⟩
  cases kind with
  | field =>
    rw [members] at h
    simp [Renames.memberName, Renames.fieldName, h]
  | method => exact h

/-- A row gives an entry exactly where neither of its two names is empty. -/
theorem memberEntry_eq_some_iff {key : MemberKey} {new : String} :
    memberEntry carry.mapClass i j row = some (key, new) ↔
      row.names.getD i "" ≠ "" ∧ row.names.getD j "" ≠ "" ∧ carry.keyAt i row = key ∧
        row.names.getD j "" = new := by
  rw [memberEntry, namePair, Option.map_eq_some_iff]
  constructor
  · rintro ⟨pair, hpair, heq⟩
    obtain ⟨hne, hpair⟩ := Option.ite_none_left_eq_some.1 hpair
    cases hpair
    cases heq
    exact ⟨(not_or.1 hne).1, (not_or.1 hne).2, rfl, rfl⟩
  · rintro ⟨hi, hj, rfl, rfl⟩
    exact ⟨_, if_neg (not_or.2 ⟨hi, hj⟩), rfl⟩

/-- The projection from the first namespace onto the source of another one carries classes as that
one carries the owners and descriptors of member rows. So the other one finds the member of each row
that has a name in both of its namespaces, and gives it the name in the last such row for that
member. -/
theorem memberName_of_project (hfirst : table.namespaces.head? = some first)
    (hnames : ∀ row ∈ table.classes, row.getD 0 "" ≠ "")
    (hdistinct : (table.classes.map (·.getD 0 "")).Nodup) (hsource : source ∈ table.namespaces)
    (htarget : target ∈ table.namespaces) (ignoreFieldDesc ignoreFieldDesc' : Bool) :
    ∃ i j carry r, table.column source = .ok i ∧ table.column target = .ok j ∧
      table.project first source ignoreFieldDesc = .ok carry ∧
      table.project source target ignoreFieldDesc' = .ok r ∧
      (∀ name, classInColumn table.primary i name = carry.mapClass name) ∧
      ∀ kind, ∀ row ∈ table.members kind, row.names.getD i "" ≠ "" → row.names.getD j "" ≠ "" →
        ∃ before last after, table.members kind = before ++ last :: after ∧
          carry.keyAt i last = carry.keyAt i row ∧ last.names.getD j "" ≠ "" ∧
          (∀ later ∈ after, carry.keyAt i later = carry.keyAt i row →
            later.names.getD j "" = "") ∧
          r.memberName kind (carry.keyAt i row) = some (last.names.getD j "") := by
  obtain ⟨i, hi⟩ := exists_column hsource
  obtain ⟨j, hj⟩ := exists_column htarget
  obtain ⟨carry, hcarry, hclasses, -⟩ :=
    exists_project_of_column (column_first hfirst) hi ignoreFieldDesc
  obtain ⟨r, hr, -, hmembers⟩ := exists_project_of_column hi hj ignoreFieldDesc'
  have hinto := classInColumn_eq_mapClass hnames hdistinct hclasses
  refine ⟨i, j, carry, r, hi, hj, hcarry, hr, congrFun hinto, fun kind row hrow hold hnew => ?_⟩
  rw [hinto] at hmembers
  have hentry : memberEntry carry.mapClass i j row =
      some (carry.keyAt i row, row.names.getD j "") :=
    memberEntry_eq_some_iff.2 ⟨hold, hnew, rfl, rfl⟩
  obtain ⟨before, last, after, new, hsplit, hlast, hafter, hget⟩ :=
    exists_last_of_filterMap hrow hentry
  obtain ⟨-, hlastNew, hkey, rfl⟩ := memberEntry_eq_some_iff.1 hlast
  refine ⟨before, last, after, hsplit, hkey, hlastNew, fun later hlater hlaterKey => ?_,
    hmembers kind _ _ hget⟩
  by_contra hlaterNew
  -- A later row has the name that the row has in the source, which is not empty.
  have hlaterOld : later.names.getD i "" ≠ "" :=
    (congrArg MemberKey.name hlaterKey).trans_ne hold
  exact hafter later hlater _ (memberEntry_eq_some_iff.2 ⟨hlaterOld, hlaterNew, hlaterKey, rfl⟩)

/-! ### A nested class without a name -/

/-- A nested class that has no name in `t`, and a method of it with two rows. -/
def nestedText : String :=
  "v1\ts\tt\tu\nCLASS\tA\tX\t\nCLASS\tA$I\t\tY\n" ++
    "METHOD\tA$I\t(LA;)V\tm\tn\to\nMETHOD\tA$I\t(LA;)V\tm\tn\tp\n"

/-- The table that `nestedText` holds. -/
def nestedTable : Table where
  namespaces := ["s", "t", "u"]
  classes := [["A", "X", ""], ["A$I", "", "Y"]]
  methods :=
    [ { owner := "A$I", desc := "(LA;)V", names := ["m", "n", "o"] },
      { owner := "A$I", desc := "(LA;)V", names := ["m", "n", "p"] } ]

theorem parse_nestedText : Table.parse nestedText = .ok nestedTable := by decide +kernel

/-- The nested class is carried with its outer one. -/
theorem classInColumn_nestedTable : classInColumn nestedTable.primary 1 "A" = some "X" ∧
    classInColumn nestedTable.primary 1 "A$I" = some "X$I" := by
  have hget {name : String} {row : List String} : nestedTable.primary[name]? = some row ↔
      row ∈ nestedTable.classes ∧ row.getD 0 "" = name :=
    getElem?_primary_iff (by decide) (by decide)
  have houter : nestedTable.primary["A"]? = some ["A", "X", ""] := hget.2 (by decide)
  have hinner : nestedTable.primary["A$I"]? = some ["A$I", "", "Y"] := hget.2 (by decide)
  simp [classInColumn, Nested.rename, Nested.renameOuter, Nested.answer, houter, hinner]

/-- The method is found under the name that its class gets from the class around it, and has the
name in its second row. -/
theorem memberName_of_project_nestedTable : ∃ carry r, Table.parse nestedText = .ok nestedTable ∧
    nestedTable.project "s" "t" false = .ok carry ∧ nestedTable.project "t" "u" false = .ok r ∧
      carry.className "A$I" = "X$I" ∧
      r.memberName .method { owner := "X$I", name := "n", desc := "(LX;)V" } = some "p" := by
  have hs : nestedTable.namespaces.head? = some "s" := rfl
  have ht : "t" ∈ nestedTable.namespaces := by decide
  have hu : "u" ∈ nestedTable.namespaces := by decide
  obtain ⟨i, j, carry, r, hi, hj, hcarry, hr, hclass, hmembers⟩ :=
    memberName_of_project hs (by decide) (by decide) ht hu false false
  obtain rfl : 1 = i := Except.ok.inj hi
  obtain rfl : 2 = j := Except.ok.inj hj
  obtain ⟨houter, hinner⟩ := classInColumn_nestedTable
  rw [hclass] at houter hinner
  have howner : carry.className "A$I" = "X$I" := by
    rw [Renames.className, hinner, Option.getD_some]
  have hdesc : carry.descriptor "(LA;)V" = "(LX;)V" := by
    have himage : Descriptor.ClassMap.image carry.mapClass ['A'] = ['X'] := by
      simp [Descriptor.ClassMap.image, houter]
    simp [Renames.descriptor, Descriptor.rename, Descriptor.segments, Descriptor.segmentsFrom,
      Descriptor.Segment.rename, Descriptor.Segment.chars, himage]
  have hkeys : ∀ row ∈ nestedTable.methods,
      carry.keyAt 1 row = { owner := "X$I", name := "n", desc := "(LX;)V" } := by
    rw [← howner, ← hdesc]
    simp [nestedTable, Renames.keyAt]
  obtain ⟨before, last, after, hsplit, -, -, hafter, hname⟩ :=
    hmembers .method { owner := "A$I", desc := "(LA;)V", names := ["m", "n", "o"] } (by decide)
      (by decide) (by decide)
  rw [hkeys _ (by decide)] at hafter hname
  -- All rows have the key and a name, so none is behind the last one.
  have hnone : after = [] := by
    refine List.eq_nil_iff_forall_not_mem.2 fun later hlater => ?_
    have hmem : later ∈ nestedTable.methods := by
      rw [show nestedTable.methods = _ from hsplit]
      simp [hlater]
    have hnew : ∀ row ∈ nestedTable.methods, row.names.getD 2 "" ≠ "" := by decide
    exact hnew later hmem (hafter later hlater (hkeys later hmem))
  have hlast : nestedTable.methods.getLast? = some last := by
    rw [show nestedTable.methods = _ from hsplit, hnone, List.getLast?_concat]
  obtain rfl := Option.some.inj hlast
  exact ⟨carry, r, parse_nestedText, hcarry, hr, howner, hname⟩

end Table

end Relabel.Mapping
