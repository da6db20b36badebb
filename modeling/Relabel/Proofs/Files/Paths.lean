import Mathlib.Data.List.Infix
import Relabel.Files.Tree
import Relabel.Proofs.Text.Lines

/-!
# Where paths lead

The location that a path leads to where there are no links can be told from its names alone: `.` stays
where it is and `..` goes up. The locations on the way there are those of the names so far. A path
that is seen from a directory leads through the same locations as that directory and then, if none of
its names is `..`, to locations below it.

## Main results

- `names_join`, `origin_join`: a path seen from a directory.
- `OnWay.of_parent?`: the way to the directory that holds what a path leads to.
- `OnWay.of_join`: the way of a path seen from a directory.
-/

namespace Relabel.Path

variable {cwd start l : Location} {walk : List String} {path root parent : String}

/-! ### Names -/

/-- The names on the way of a path. -/
def names (path : String) : List String :=
  (Text.split '/' path).filter (· ≠ "")

/-- The steps of a path are its names, with one to stay behind a slash at the end. -/
theorem steps_eq (path : String) :
    steps path = if Text.endsWith path "/" then names path ++ ["."] else names path :=
  rfl

@[simp]
theorem names_empty : names "" = [] := by decide

/-- Two texts split at a slash between them are split each for itself. -/
theorem split_append (a b : String) : Text.split '/' (a ++ "/" ++ b) =
    Text.split '/' a ++ Text.split '/' b := by
  have hchars : (a ++ "/" ++ b).toList = a.toList ++ '/' :: b.toList := by simp
  rw [Text.split, Text.split, Text.split, ← List.map_append, hchars]
  congr 1
  generalize a.toList = s
  induction s using Text.induction_pieces '/' with
  | last s h => rw [Text.splitChars_append h, Text.splitChars_of_not_mem h, List.singleton_append]
  | cons piece rest h ih =>
    rw [List.append_assoc, List.cons_append, Text.splitChars_append h, Text.splitChars_append h, ih,
      List.cons_append]

theorem names_append (a b : String) : names (a ++ "/" ++ b) = names a ++ names b := by
  rw [names, split_append, List.filter_append]
  rfl

/-- A path that ends with a slash has nothing behind it. -/
theorem exists_of_endsWith (h : Text.endsWith path "/") : ∃ front, path = front ++ "/" := by
  obtain ⟨front, hfront⟩ := Option.isSome_iff_exists.1 h
  refine ⟨String.ofList front, String.toList_inj.1 ?_⟩
  simpa using Text.stripBack?_eq_some_iff.1 hfront

/-- A path is absolute by its first character. -/
theorem isAbsolute_iff : isAbsolute path ↔ path.toList.head? = some '/' := by
  rw [isAbsolute, Text.startsWith, Option.isSome_iff_exists]
  simp only [Text.stripFront?_eq_some_iff]
  cases path.toList with
  | nil => simp
  | cons c s => simp

/-- Joining an absolute path forgets the root. -/
theorem join_of_isAbsolute (hpath : isAbsolute path) : join root path = path :=
  if_pos (by rw [hpath, Bool.true_or])

/-- The names of a path seen from a directory follow those of the directory. -/
theorem names_join (hpath : ¬ isAbsolute path) : names (join root path) = names root ++ names path := by
  unfold join
  split
  -- The join of an empty root is the path itself, and a final slash is not doubled.
  · next h =>
    have hroot : root = "" := by simpa [hpath] using h
    rw [hroot, names_empty, List.nil_append]
  · split
    · next hslash =>
      obtain ⟨front, rfl⟩ := exists_of_endsWith hslash
      have hfront : front ++ "/" = front ++ "/" ++ "" := by simp
      rw [names_append, hfront, names_append, names_empty, List.append_nil]
    · exact names_append root path

/-- A path without names is empty or absolute. -/
theorem eq_empty_of_names (hpath : ¬ isAbsolute path) (h : names path = []) : path = "" := by
  rw [isAbsolute_iff] at hpath
  cases hchars : path.toList with
  | nil => exact String.toList_eq_nil_iff.1 hchars
  | cons c s =>
    have hc : c ≠ '/' := by
      rintro rfl
      exact hpath (by rw [hchars]; rfl)
    obtain ⟨first, others, hpieces⟩ := List.exists_cons_of_ne_nil (Text.splitChars_ne_nil '/' s)
    rw [names, Text.split, hchars, Text.splitChars_cons, if_neg hc, hpieces, Text.consFirst] at h
    simp at h

/-- A text with a slash behind it ends with a slash. -/
theorem endsWith_append_slash (front : String) : Text.endsWith (front ++ "/") "/" := by
  rw [Text.endsWith, Option.isSome_iff_exists]
  exact ⟨front.toList, Text.stripBack?_eq_some_iff.2 (by simp)⟩

/-- The empty path seen from a directory is that of the directory with a slash at its end, unless
that is empty, too. -/
theorem join_empty (root : String) : join root "" = "" ∨ Text.endsWith (join root "") "/" := by
  unfold join
  split
  · exact .inl rfl
  · split
    · next hslash => exact .inr (by rwa [String.append_empty])
    · exact .inr (by rw [String.append_empty]; exact endsWith_append_slash root)

/-! ### Locations -/

/-- Where a name leads from a location. -/
def move (location : Location) (name : String) : Location :=
  if name = "." then location else if name = ".." then location.dropLast else location ++ [name]

/-- Where names lead from a location. -/
def resolve (start : Location) (walk : List String) : Location :=
  walk.foldl move start

theorem resolve_append (start : Location) (front back : List String) :
    resolve start (front ++ back) = resolve (resolve start front) back :=
  List.foldl_append

/-- Where a path is seen from. -/
def origin (cwd : Location) (path : String) : Location :=
  if isAbsolute path then [] else cwd

/-- The location that a path leads to. -/
def place (cwd : Location) (path : String) : Location :=
  resolve (origin cwd path) (names path)

/-- The path leads through a location, or to it. -/
def OnWay (cwd : Location) (path : String) (l : Location) : Prop :=
  ∃ front, front <+: names path ∧ l = resolve (origin cwd path) front

/-- The place of a path is on the way to it. -/
theorem onWay_place (cwd : Location) (path : String) : OnWay cwd path (place cwd path) :=
  ⟨names path, List.prefix_refl _, rfl⟩

/-- The `.` that stands for a slash at the end of a path leads nowhere else. -/
theorem resolve_steps (start : Location) (path : String) :
    resolve start (steps path) = resolve start (names path) := by
  rw [steps_eq]
  split
  · rw [resolve_append]
    rfl
  · rfl

/-- Where a path starts from depends on its first character only. -/
theorem origin_of_head?_eq {q : String} (h : path.toList.head? = q.toList.head?) :
    origin cwd path = origin cwd q := by
  have habsolute : isAbsolute path = isAbsolute q := by
    rw [Bool.eq_iff_iff, isAbsolute_iff, isAbsolute_iff, h]
  rw [origin, origin, habsolute]

/-- A path joined to a root starts where the root does. -/
theorem origin_join (hpath : ¬ isAbsolute path) : origin cwd (join root path) = origin cwd root := by
  unfold join
  split
  · next h =>
    have hroot : root = "" := by simpa [hpath] using h
    subst hroot
    rw [origin, if_neg hpath]
    rfl
  · next h =>
    have hroot : root.toList ≠ [] := by
      rintro hnil
      simp [String.toList_eq_nil_iff.1 hnil] at h
    have hhead : ∀ back : List Char, (root.toList ++ back).head? = root.toList.head? :=
      fun back => List.head?_append_of_ne_nil _ hroot
    split
    · exact origin_of_head?_eq (by rw [String.toList_append, hhead])
    · exact origin_of_head?_eq (by rw [String.toList_append, String.toList_append,
        List.append_assoc, hhead])

/-- A path that is not absolute leads on from the directory that it is seen from. -/
theorem place_join (hpath : ¬ isAbsolute path) :
    place cwd (join root path) = resolve (place cwd root) (names path) := by
  rw [place, origin_join hpath, names_join hpath, resolve_append, place]

/-! ### Going down only -/

/-- Without a step up a walk never leaves its start. -/
theorem prefix_resolve (h : ".." ∉ walk) : start <+: resolve start walk := by
  induction walk generalizing start with
  | nil => exact List.prefix_refl start
  | cons name walk ih =>
    rw [List.mem_cons, not_or] at h
    refine List.IsPrefix.trans ?_ (ih h.2)
    rw [move, if_neg (Ne.symm h.1)]
    split
    · exact List.prefix_refl start
    · exact List.prefix_append start [name]

/-- The way of a path seen from a directory is the way to the directory and one below it. -/
theorem OnWay.of_join (hpath : ¬ isAbsolute path) (hup : ".." ∉ names path)
    (h : OnWay cwd (join root path) l) :
    OnWay cwd root l ∨ place cwd root <+: l ∧ l ≠ place cwd root := by
  obtain ⟨front, ⟨back, hnames⟩, rfl⟩ := h
  rw [names_join hpath] at hnames
  rw [origin_join hpath]
  -- The way ends within the root, or goes some names of the path further.
  rcases List.append_eq_append_iff.1 hnames with ⟨more, hroot, -⟩ | ⟨more, rfl, hmore⟩
  · exact .inl ⟨front, ⟨more, hroot.symm⟩, rfl⟩
  · rw [resolve_append]
    by_cases hplace : resolve (resolve (origin cwd root) (names root)) more = place cwd root
    · rw [hplace]
      exact .inl (onWay_place cwd root)
    · exact .inr ⟨prefix_resolve fun hmem =>
        hup (hmore ▸ List.mem_append_left back hmem), hplace⟩

/-! ### The directory above -/

/-- What is cut off of a path, with its characters in reverse, starts with a slash if what is left is
followed by one. -/
theorem exists_of_trimEnd_cons (s : List Char) :
    ∃ cut, '/' :: s = cut ++ '/' :: trimEnd ('/' :: s) := by
  -- The slash in front is kept whatever is cut behind it, so the induction is on the rest.
  show ∃ cut, '/' :: s = cut ++ '/' :: trimEnd s
  induction s using trimEnd.induct with
  | case1 rest ih =>
    obtain ⟨cut, hcut⟩ := ih
    exact ⟨'/' :: cut, by rw [trimEnd, List.cons_append, ← hcut]⟩
  | case2 rest ih =>
    obtain ⟨cut, hcut⟩ := ih
    exact ⟨'/' :: '.' :: cut, by rw [trimEnd, List.cons_append, List.cons_append, ← hcut]⟩
  | case3 s hslash hdot =>
    refine ⟨[], ?_⟩
    rw [trimEnd]
    · rfl
    · exact hslash
    · exact hdot

/-- What is cut stands at the end. -/
theorem trimEnd_suffix (s : List Char) : trimEnd s <:+ s := by
  induction s using trimEnd.induct with
  | case1 rest ih => exact ih.trans (List.suffix_cons _ _)
  | case2 rest ih => exact ih.trans ((List.suffix_cons _ _).trans (List.suffix_cons _ _))
  | case3 s hslash hdot =>
    have hkept : trimEnd s = s := by
      rw [trimEnd]
      · exact hslash
      · exact hdot
    rw [hkept]

/-- The path of the directory above is what a slash of the path has in front of it, unless it is
nothing or the root. -/
theorem parent?_eq_some (h : parent? path = some parent) :
    (parent = "" ∧ ¬ isAbsolute path) ∨ (parent = "/" ∧ isAbsolute path) ∨
      ∃ rest, parent ≠ "" ∧ path = parent ++ "/" ++ rest := by
  unfold parent? at h
  dsimp only at h
  split at h
  · cases h
  split at h
  · next hroot =>
    obtain rfl := Option.some.inj h
    exact .inr (.inl ⟨rfl, (Bool.and_eq_true_iff.1 hroot).2⟩)
  · next hroot =>
    obtain rfl := Option.some.inj h
    have hsuffix := trimEnd_suffix path.toList.reverse
    generalize trimEnd path.toList.reverse = body at hsuffix hroot ⊢
    have hbehind := (List.dropWhile_suffix (p := fun c => decide (c ≠ '/')) (l := body)).trans hsuffix
    -- What is left once the last name is gone begins, reversed, with the slash before it.
    generalize hdrop : body.dropWhile (fun c => decide (c ≠ '/')) = front at hbehind hroot ⊢
    by_cases hempty : trimEnd front = []
    · rw [hempty] at hroot ⊢
      exact .inl ⟨rfl, by simpa using hroot⟩
    · obtain ⟨above, rfl⟩ : ∃ above, front = '/' :: above := by
        -- The part that is dropped is all that is no slash.
        cases front with
        | nil => exact absurd rfl hempty
        | cons c above =>
          have hhead := List.head?_dropWhile_not (fun c => decide (c ≠ '/')) body
          rw [hdrop] at hhead
          obtain rfl : c = '/' := by simpa using hhead
          exact ⟨above, rfl⟩
      obtain ⟨back, hback⟩ := hbehind
      obtain ⟨cut, hcut⟩ := exists_of_trimEnd_cons above
      rw [hcut] at hback
      refine .inr (.inr ⟨String.ofList (back ++ cut).reverse, ?_, ?_⟩)
      · simpa using hempty
      · rw [← String.toList_inj, ← List.reverse_inj, ← hback]
        simp

/-- The directory above lies on the way. -/
theorem OnWay.of_parent? (h : parent? path = some parent) (hl : OnWay cwd parent l) :
    OnWay cwd path l := by
  obtain ⟨front, hfront, rfl⟩ := hl
  -- The parent is empty, the root directory, or a path that the longer one begins with.
  rcases parent?_eq_some h with ⟨rfl, hrelative⟩ | ⟨rfl, habsolute⟩ | ⟨rest, hne, rfl⟩
  · rw [names_empty, List.prefix_nil] at hfront
    subst hfront
    exact ⟨[], List.nil_prefix, (if_neg hrelative).symm⟩
  · have hnames : names "/" = [] := by decide
    rw [hnames, List.prefix_nil] at hfront
    subst hfront
    exact ⟨[], List.nil_prefix, (if_pos habsolute).symm⟩
  · refine ⟨front, ?_, ?_⟩
    · rw [names_append]
      exact hfront.trans (List.prefix_append _ _)
    · have hhead : (parent ++ "/" ++ rest).toList.head? = parent.toList.head? := by
        rw [String.toList_append, String.toList_append, List.append_assoc]
        exact List.head?_append_of_ne_nil _ (by simpa using hne)
      rw [origin_of_head?_eq hhead]

end Relabel.Path
