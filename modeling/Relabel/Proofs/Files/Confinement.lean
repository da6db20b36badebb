import Relabel.Files.Sink
import Relabel.Files.Tree
import Relabel.Proofs.Files.Paths
import Relabel.Proofs.Steps

/-!
# Where entries are written

Writing a path changes a file tree only on the way of that path: directories that are missing are
created there, and at its end a file is written. So entries written below a directory change what
lies below it, and create directories on the way to it. A path with the name `..` is refused; an
absolute one is not, though it is not seen from the directory at all.

## Main results

- `FileTree.changes_createDirectories`, `FileTree.changes_writeFile`: what one operation changes.
- `Entries.does_writeEntry`: what writing one entry changes.
- `Entries.confined_writeDirectory`: what writing all entries changes.
-/

namespace Relabel

open Relabel.Path (OnWay place origin resolve names)

namespace FileTree

variable {t t' t'' : FileTree} {D D' F F' : Location → Prop} {start l l' m : Location}
  {walk front back : List String} {path : String} {bytes : Bytes} {node : FileNode}

/-! ### Changes -/

/-- A tree changes at locations of two kinds only: anything may happen at those in `F`, and where there
is nothing at those in `D` a directory may be created. -/
structure Changes (D F : Location → Prop) (t t' : FileTree) : Prop where
  workingDirectory_eq : t'.workingDirectory = t.workingDirectory
  node? : ∀ l, t'.node? l = t.node? l ∨ F l ∨
    D l ∧ t.node? l = none ∧ t'.node? l = some .directory

namespace Changes

theorem refl (t : FileTree) : Changes D F t t :=
  ⟨rfl, fun _ => .inl rfl⟩

/-- Changes follow one another. -/
theorem trans (h : Changes D F t t') (h' : Changes D F t' t'') : Changes D F t t'' := by
  refine ⟨h'.workingDirectory_eq.trans h.workingDirectory_eq, fun l => ?_⟩
  rcases h.node? l with hsame | hF | ⟨hD, hnone, hdirectory⟩
  · rw [← hsame]
    exact h'.node? l
  · exact .inr (.inl hF)
  · rcases h'.node? l with hsame' | hF | ⟨-, hnone', -⟩
    · exact .inr (.inr ⟨hD, hnone, hsame'.trans hdirectory⟩)
    · exact .inr (.inl hF)
    · rw [hdirectory] at hnone'
      cases hnone'

/-- What may be created or written may be taken to be more. -/
theorem mono (h : Changes D F t t') (hD : ∀ l, D l → D' l ∨ F' l) (hF : ∀ l, F l → F' l) :
    Changes D' F' t t' := by
  refine ⟨h.workingDirectory_eq, fun l => ?_⟩
  rcases h.node? l with hsame | hl | ⟨hl, hnone, hdirectory⟩
  · exact .inl hsame
  · exact .inr (.inl (hF l hl))
  · rcases hD l hl with hl | hl
    · exact .inr (.inr ⟨hl, hnone, hdirectory⟩)
    · exact .inr (.inl hl)

end Changes

/-! ### Following paths -/

/-- Where a way can be followed, it leads where its names say, by induction on them. -/
theorem eq_resolve_of_follow (h : t.follow start walk = .ok l) : l = resolve start walk := by
  induction walk generalizing start with
  | nil => exact (Except.ok.inj h).symm
  | cons name walk ih =>
    have hmove : resolve start (name :: walk) = resolve (Path.move start name) walk := rfl
    rw [hmove, Path.move]
    unfold follow at h
    split at h
    · cases h
    -- A dot stays where it is, two dots go up, and any other name goes down.
    split at h
    · next hdot => rw [if_pos hdot, ih h]
    · next hdot =>
      rw [if_neg hdot]
      split at h
      · next hup => rw [if_pos hup, ih h]
      · next hup =>
        split at h
        · cases h
        · rw [if_neg hup, ih h]

/-- A way is followed piece by piece. -/
theorem follow_append : t.follow start (front ++ back) = .ok l ↔
    ∃ m, t.follow start front = .ok m ∧ t.follow m back = .ok l := by
  induction front generalizing start with
  | nil => simp [follow]
  | cons name front ih =>
    rw [List.cons_append, follow, follow]
    -- The same tests are made on either side for the first name.
    split
    · simp
    split
    · exact ih
    split
    · exact ih
    split
    · simp
    · exact ih

/-- What is found by its path is followed from where the path starts. -/
theorem locateSteps_eq_ok (h : t.locateSteps path walk = .ok l) :
    path ≠ "" ∧ t.follow (origin t.workingDirectory path) walk = .ok l := by
  unfold locateSteps at h
  split at h
  · cases h
  split at h
  · cases h
  · next hne =>
    split at h
    · cases h
    · exact ⟨hne, h⟩

/-- What is found by its path is at its place. -/
theorem eq_place_of_locate (h : t.locate path = .ok l) : l = place t.workingDirectory path := by
  rw [eq_resolve_of_follow (locateSteps_eq_ok h).2, Path.resolve_steps, place]

/-! ### Operations -/

/-- Putting a node somewhere changes what is there, and nothing else. -/
theorem node?_put (hl : l ≠ []) (m : Location) :
    (t.put l node).node? m = if l = m then some node else t.node? m := by
  unfold put FileTree.node?
  cases m with
  | nil => simp [hl]
  | cons name m =>
    simp only [List.isEmpty_cons, Bool.false_eq_true, if_false, Std.TreeMap.getElem?_insert,
      Std.LawfulEqCmp.compare_eq_iff_eq]

/-- A directory may be put where it may be created. -/
theorem changes_put_directory (hnone : t.node? l = none) (hl : D l) :
    Changes D F t (t.put l .directory) := by
  have hne : l ≠ [] := by
    rintro rfl
    cases hnone
  refine ⟨rfl, fun m => ?_⟩
  rw [node?_put hne]
  split
  · next hm => exact .inr (.inr ⟨hm ▸ hl, hm ▸ hnone, rfl⟩)
  · exact .inl rfl

/-- A file may be put where it may be written. -/
theorem changes_put_file (hne : l ≠ []) (hl : F l) : Changes D F t (t.put l (.file bytes)) := by
  refine ⟨rfl, fun m => ?_⟩
  rw [node?_put hne]
  split
  · next hm => exact .inr (.inl (hm ▸ hl))
  · exact .inl rfl

/-- Creating a directory changes at most what is on the way of its path. -/
theorem changes_createDirectory (h : t.createDirectory path = .ok t') :
    Changes (OnWay t.workingDirectory path) F t t' := by
  obtain ⟨l, hl, h⟩ := Except.bind_eq_ok.1 h
  obtain rfl := eq_place_of_locate hl
  dsimp only at h
  split at h
  · simp only [Except.bind_eq_ok, Except.throw_eq_ok, false_and, exists_false] at h
  · next hnone =>
    obtain rfl := Except.ok.inj h
    exact changes_put_directory (by simpa using hnone) (Path.onWay_place _ _)

/-- So does making sure that it is there. -/
theorem changes_ensureDirectory :
    Changes (OnWay t.workingDirectory path) F t (t.ensureDirectory path).2 := by
  unfold ensureDirectory
  split
  · next h => exact changes_createDirectory h
  · split <;> exact .refl t

/-- Creating a directory with those above it changes at most what is on the way, by induction on how
far it goes up. -/
theorem changes_createDirectoriesFrom (fuel : Nat) :
    Changes (OnWay t.workingDirectory path) F t (createDirectoriesFrom fuel t path).2 := by
  induction fuel generalizing t path with
  | zero => exact .refl t
  | succ fuel ih =>
    unfold createDirectoriesFrom
    split
    · exact .refl t
    have hensure : Changes (OnWay t.workingDirectory path) F t (t.ensureDirectory path).2 :=
      changes_ensureDirectory
    split
    · next tried t₁ parent htried hparent =>
      rw [htried] at hensure
      have hwd := hensure.workingDirectory_eq
      -- What is on the way of the parent is on the way of the directory.
      have hway : ∀ l, OnWay t₁.workingDirectory parent l →
          OnWay t.workingDirectory path l ∨ F l := fun l hl =>
        .inl (.of_parent? hparent (hwd ▸ hl))
      have habove : Changes (OnWay t.workingDirectory path) F t
          (createDirectoriesFrom fuel t₁ parent).2 :=
        hensure.trans (Changes.mono ih hway fun _ => id)
      split
      · next t₂ hcreated =>
        rw [hcreated] at habove
        refine habove.trans ?_
        rw [← habove.workingDirectory_eq]
        exact changes_ensureDirectory
      · exact habove
    · exact hensure

/-- Creating a directory creates nothing beside its way. -/
theorem changes_createDirectories :
    Changes (OnWay t.workingDirectory path) F t (t.createDirectories path).2 :=
  changes_createDirectoriesFrom _

/-- A file is written where its path leads, and that is no directory. -/
theorem writeFile_eq_ok (h : t.writeFile path bytes = .ok t') :
    path ≠ "" ∧ ¬ Text.endsWith path "/" ∧
      ∃ l, t.follow (origin t.workingDirectory path) (names path) = .ok l ∧
        t.isDirectoryAt l = false ∧ t' = t.put l (.file bytes) := by
  unfold writeFile at h
  dsimp only at h
  obtain ⟨l, hl, h⟩ := Except.bind_eq_ok.1 h
  -- A path to a directory is refused, so what is left leads to a file.
  split at h
  · simp only [Except.bind_eq_ok, Except.throw_eq_ok, false_and, exists_false] at h
  · next hfile =>
    obtain ⟨hslash, hdirectory⟩ := not_or.1 (mt Bool.or_eq_true_iff.2 hfile)
    rw [if_neg hslash, Path.steps_eq, if_neg hslash] at hl
    obtain ⟨hne, hfollow⟩ := locateSteps_eq_ok hl
    exact ⟨hne, hslash, l, hfollow, Bool.eq_false_iff.2 hdirectory, (Except.ok.inj h).symm⟩

/-- Writing a file changes the end of its way only. -/
theorem changes_writeFile (h : t.writeFile path bytes = .ok t')
    (hplace : F (place t.workingDirectory path)) : Changes D F t t' := by
  obtain ⟨-, -, l, hfollow, hdirectory, rfl⟩ := writeFile_eq_ok h
  obtain rfl := eq_resolve_of_follow hfollow
  refine changes_put_file ?_ hplace
  intro hnil
  rw [hnil] at hdirectory
  cases hdirectory

/-- A file is not written in the place of the directory that its path is seen from. -/
theorem place_ne_of_writeFile {root : String} (hpath : ¬ Path.isAbsolute path)
    (h : t.writeFile (Path.join root path) bytes = .ok t') :
    place t.workingDirectory (Path.join root path) ≠ place t.workingDirectory root := by
  intro heq
  obtain ⟨hne, hslash, l, hfollow, hdirectory, -⟩ := writeFile_eq_ok h
  rw [Path.origin_join hpath, Path.names_join hpath] at hfollow
  have hl : place t.workingDirectory (Path.join root path) = l := by
    rw [eq_resolve_of_follow hfollow, Path.resolve_append, Path.place_join hpath, place]
  rw [hl] at heq
  obtain ⟨m, hm, hfollow⟩ := follow_append.1 hfollow
  obtain rfl : m = l := (eq_resolve_of_follow hm).trans heq.symm
  cases hnames : names path with
  | nil =>
    -- Without a name the path is empty, and then what is written has a slash at its end.
    obtain rfl := Path.eq_empty_of_names hpath hnames
    exact (Path.join_empty root).elim hne hslash
  | cons name walk =>
    -- A dot leads through a directory, which no file is written over.
    rw [hnames, follow, if_pos (by rw [hdirectory]; rfl)] at hfollow
    cases hfollow

/-! ### Steps on a tree -/

/-- What steps give on a tree, and the tree afterwards. -/
def perform (act : FilesT (StateM FileTree) α) (t : FileTree) : Except FileProblem α × FileTree :=
  StateT.run (ExceptT.run act) t

/-- On every tree with a working directory steps change locations of the two kinds only. -/
def Does (cwd : Location) (D F : Location → Prop) (act : FilesT (StateM FileTree) α) : Prop :=
  ∀ t, t.workingDirectory = cwd → Changes D F t (perform act t).2

section

variable {α β : Type} {cwd : Location} {x : FilesT (StateM FileTree) α}
  {f : α → FilesT (StateM FileTree) β}

/-- What is done second is done to the tree that the first left, if it did not fail. -/
theorem perform_bind (t : FileTree) : perform (x >>= f) t =
    match perform x t with
    | (.ok a, t') => perform (f a) t'
    | (.error problem, t') => (.error problem, t') := by
  simp only [perform, ExceptT.run_bind, StateT.run_bind]
  generalize StateT.run (ExceptT.run x) t = ran
  obtain ⟨result, t'⟩ := ran
  cases result <;> rfl

/-- An attempt does to the tree what is attempted, and names what went wrong. -/
theorem perform_attempt (problem : FileFault → FileProblem)
    (act : StateM FileTree (Except FileFault α)) (t : FileTree) :
    perform (FilesT.attempt problem act) t = ((act t).1.mapError problem, (act t).2) := by
  unfold FilesT.attempt
  rw [perform_bind]
  have hlift : perform (liftM act : FilesT (StateM FileTree) (Except FileFault α)) t =
      (.ok (act t).1, (act t).2) := rfl
  rw [hlift]
  cases (act t).1 <;> rfl

theorem Does.pure (a : α) : Does cwd D F (pure a) :=
  fun t _ => .refl t

theorem Does.throw (problem : FileProblem) :
    Does cwd D F (throw problem : FilesT (StateM FileTree) α) :=
  fun t _ => .refl t

/-- What stays within bounds does so one after the other. -/
theorem Does.bind (hx : Does cwd D F x) (hf : ∀ a, Does cwd D F (f a)) : Does cwd D F (x >>= f) := by
  intro t ht
  have hchanges := hx t ht
  rw [perform_bind]
  cases hrun : perform x t with
  | mk result t' =>
    rw [hrun] at hchanges
    cases result with
    | error problem => exact hchanges
    | ok a => exact hchanges.trans (hf a t' (hchanges.workingDirectory_eq.trans ht))

/-- So does a loop whose passes do. -/
theorem Does.forM {items : List β} {g : β → FilesT (StateM FileTree) PUnit}
    (h : ∀ item ∈ items, Does cwd D F (g item)) : Does cwd D F (items.forM g) := by
  induction items with
  | nil => exact .pure PUnit.unit
  | cons item items ih =>
    obtain ⟨hitem, hitems⟩ := List.forall_mem_cons.1 h
    exact hitem.bind fun _ => ih hitems

/-- Creating directories stays within bounds that hold the way of the path. -/
theorem does_attempt_createDirectories (problem : FileFault → FileProblem)
    (hway : ∀ l, OnWay cwd path l → D l ∨ F l) :
    Does cwd D F (FilesT.attempt problem (fileSystem.createDirectories path)) := by
  intro t ht
  rw [perform_attempt]
  refine Changes.mono changes_createDirectories ?_ fun _ => id
  rwa [ht]

/-- Writing a file stays within bounds that hold its place, wherever it can be written. -/
theorem does_attempt_writeFile (problem : FileFault → FileProblem)
    (hplace : ∀ t t' : FileTree, t.workingDirectory = cwd → t.writeFile path bytes = .ok t' →
      F (place cwd path)) :
    Does cwd D F (FilesT.attempt problem (fileSystem.writeFile path bytes)) := by
  intro t ht
  rw [perform_attempt]
  -- Where writing fails, the tree stays.
  cases hwrite : t.writeFile path bytes with
  | error fault =>
    simp only [fileSystem, hwrite]
    exact .refl t
  | ok t' =>
    simp only [fileSystem, hwrite]
    exact changes_writeFile hwrite (ht ▸ hplace t t' ht hwrite)

end

end FileTree

/-! ### Entries -/

namespace Entries

open FileTree (Does perform)

variable {cwd : Location} {root path : String} {bytes : Bytes} {e : Entries}
  {D F : Location → Prop}

/-- A path climbs where one of its names is two dots. -/
theorem climbs_iff : climbs path ↔ ".." ∈ names path := by
  simp [climbs, names, List.mem_filter]

/-- A location below that of a directory. -/
def Below (cwd : Location) (root : String) (l : Location) : Prop :=
  place cwd root <+: l ∧ l ≠ place cwd root

/-- An entry with the name `..` in its path is refused, and every other one is written. -/
theorem writeEntry_eq (files : FileSystem (StateM FileTree)) (root path : String) (bytes : Bytes) :
    writeEntry files root (path, bytes) =
      if climbs path then throw (.outside path)
      else
        (match Path.parent? (Path.join root path) with
          | some parent => createDirectories files parent
          | none => pure ()) >>= fun _ =>
        FilesT.attempt (.writeFile (Path.join root path))
          (files.writeFile (Path.join root path) bytes) := by
  unfold writeEntry
  dsimp only
  split
  · rfl
  · cases Path.parent? (Path.join root path) <;> rfl

/-- An entry with an absolute path is written to the same place below every root. -/
theorem writeEntry_of_isAbsolute (hpath : Path.isAbsolute path)
    (files : FileSystem (StateM FileTree)) (root root' : String) (bytes : Bytes) :
    writeEntry files root (path, bytes) = writeEntry files root' (path, bytes) := by
  rw [writeEntry_eq, writeEntry_eq, Path.join_of_isAbsolute hpath, Path.join_of_isAbsolute hpath]

example :
    (perform (writeEntry FileTree.fileSystem "out" ("/a", [1])) {}).2.node? ["a"] =
      some (.file [1]) := by
  decide +kernel

/-- Writing an entry changes the way of its path only. -/
theorem does_writeEntry (hway : ¬ climbs path → ∀ l, OnWay cwd (Path.join root path) l → D l ∨ F l)
    (hplace : ¬ climbs path → ∀ t t' : FileTree, t.workingDirectory = cwd →
      t.writeFile (Path.join root path) bytes = .ok t' → F (place cwd (Path.join root path))) :
    Does cwd D F (writeEntry FileTree.fileSystem root (path, bytes)) := by
  rw [writeEntry_eq]
  -- A path that climbs is refused before anything is touched.
  split
  · exact FileTree.Does.throw _
  · next hclimbs =>
    refine FileTree.Does.bind ?_ fun _ => FileTree.does_attempt_writeFile _ (hplace hclimbs)
    -- The directory above is on the way to the entry.
    cases hparent : Path.parent? (Path.join root path) with
    | some parent =>
      exact FileTree.does_attempt_createDirectories _ fun l hl =>
        hway hclimbs l (.of_parent? hparent hl)
    | none => exact FileTree.Does.pure ()

/-- What entries may change: locations below the root, and those on the way of an absolute path that
is not refused. -/
def Reached (cwd : Location) (root : String) (e : Entries) (l : Location) : Prop :=
  Below cwd root l ∨
    ∃ entry ∈ e.toList, Path.isAbsolute entry.1 ∧ ¬ climbs entry.1 ∧ OnWay cwd entry.1 l

/-- Writing one of the entries changes at most what is on the way of the root, and what is reached
by an entry. -/
theorem does_writeEntry_of_mem {entry : String × Bytes} (hentry : entry ∈ e.toList) :
    Does cwd (OnWay cwd root) (Reached cwd root e)
      (writeEntry FileTree.fileSystem root entry) := by
  obtain ⟨path, bytes⟩ := entry
  -- An absolute path forgets the root, and any other goes on from it.
  by_cases habsolute : Path.isAbsolute path
  · have hjoin : Path.join root path = path := Path.join_of_isAbsolute habsolute
    refine does_writeEntry (fun hclimbs l hl => ?_) fun hclimbs _ _ _ _ => ?_
    · exact .inr (.inr ⟨_, hentry, habsolute, hclimbs, hjoin ▸ hl⟩)
    · rw [hjoin]
      exact .inr ⟨_, hentry, habsolute, hclimbs, Path.onWay_place cwd path⟩
  -- A relative path that does not climb stays below the place of the root.
  · refine does_writeEntry (fun hclimbs l hl => ?_) fun hclimbs t t' ht hwrite => .inl ⟨?_, ?_⟩
    · exact (hl.of_join habsolute fun hup => hclimbs (climbs_iff.2 hup)).imp_right .inl
    · rw [Path.place_join habsolute]
      exact Path.prefix_resolve fun hup => hclimbs (climbs_iff.2 hup)
    · subst ht
      exact FileTree.place_ne_of_writeFile habsolute hwrite

/-- Where all entries are written, none of them has the name `..` in its path. -/
theorem not_climbs_of_forM {t : FileTree} {entries : List (String × Bytes)}
    (h : (perform (entries.forM (writeEntry FileTree.fileSystem root)) t).1 = .ok ()) :
    ∀ entry ∈ entries, ¬ climbs entry.1 := by
  induction entries generalizing t with
  | nil => simp
  | cons entry entries ih =>
    have hbind : (entry :: entries).forM (writeEntry FileTree.fileSystem root) =
        (writeEntry FileTree.fileSystem root entry >>= fun _ =>
          entries.forM (writeEntry FileTree.fileSystem root)) := rfl
    rw [hbind, FileTree.perform_bind] at h
    -- The first entry that fails ends the writing.
    split at h
    · next hentry =>
      refine List.forall_mem_cons.2 ⟨fun hclimbs => ?_, ih h⟩
      rw [writeEntry_eq, if_pos hclimbs] at hentry
      cases hentry
    · cases h

/-- Writing entries below a root changes nothing but what is below the root, and the directories on
the way to it, which are created where they are missing; an absolute path is the only one that leads
elsewhere. If a path has the name `..`, writing fails. -/
theorem confined_writeDirectory (t : FileTree) (root : String) (e : Entries) :
    (∀ l, (perform (e.writeDirectory FileTree.fileSystem root) t).2.node? l ≠ t.node? l →
      Reached t.workingDirectory root e l ∨
      OnWay t.workingDirectory root l ∧ t.node? l = none ∧
        (perform (e.writeDirectory FileTree.fileSystem root) t).2.node? l = some .directory) ∧
    ((∃ entry ∈ e.toList, climbs entry.1) →
      ∃ problem, (perform (e.writeDirectory FileTree.fileSystem root) t).1 = .error problem) := by
  constructor
  · intro l hl
    have hdoes : Does t.workingDirectory (OnWay t.workingDirectory root)
        (Reached t.workingDirectory root e) (e.writeDirectory FileTree.fileSystem root) :=
      .forM fun entry hentry => does_writeEntry_of_mem hentry
    exact ((hdoes t rfl).node? l).resolve_left hl
  · rintro ⟨entry, hentry, hclimbs⟩
    -- Were all entries written, none of them would climb.
    cases hresult : (perform (e.writeDirectory FileTree.fileSystem root) t).1 with
    | error problem => exact ⟨problem, rfl⟩
    | ok => exact absurd hclimbs (not_climbs_of_forM hresult entry hentry)

end Entries

end Relabel
