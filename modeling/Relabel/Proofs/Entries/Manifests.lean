import Mathlib.Data.List.Forall2
import Mathlib.Data.String.Basic
import Relabel.Entries.Basic
import Relabel.Proofs.Text.Lines

/-!
# Reading a written manifest

A written manifest is read back as the sections it was written from. A line is broken where it
would have more than 72 bytes, so the break may stand anywhere in a value, but not in a name that
leaves room for the colon and the blank behind it. The blank behind the colon goes with all white
space that follows it, so a value is read back if it starts with none.

## Main results

- `parse_render`: writing and reading, and how long the lines are.
- `keepsMeaning_relabelManifest`: the manifest under the new names.
-/

namespace Relabel.Manifest

open String (utf8Len)

variable {a : Attribute} {s : Section} {sections : List Section} {mapClass : String → Option String}
  {room : Nat} {text line front first : List Char} {lines lines' more : List (List Char)}

/-! ### Lines -/

/-- Lines, each with a carriage return and a line feed at its end. -/
def ended (lines : List (List Char)) : List Char :=
  lines.flatMap (· ++ ['\r', '\n'])

theorem ended_cons (line : List Char) (lines : List (List Char)) :
    ended (line :: lines) = line ++ '\r' :: '\n' :: ended lines := by
  simp [ended]

theorem ended_append (lines lines' : List (List Char)) :
    ended (lines ++ lines') = ended lines ++ ended lines' :=
  List.flatMap_append

/-- What the lines of a manifest are to be: none has a line feed in it or more than 72 bytes. -/
structure Physical (lines : List (List Char)) : Prop where
  no_feed : ∀ line ∈ lines, '\n' ∉ line
  short : ∀ line ∈ lines, utf8Len line ≤ 72

theorem Physical.append (h : Physical lines) (h' : Physical lines') : Physical (lines ++ lines') :=
  ⟨List.forall_mem_append.2 ⟨h.no_feed, h'.no_feed⟩, List.forall_mem_append.2 ⟨h.short, h'.short⟩⟩

/-- The lines of a text made of lines. -/
theorem lineChars_ended (h : ∀ line ∈ lines, '\n' ∉ line) :
    Text.lineChars (ended lines) = lines := by
  induction lines with
  | nil => rfl
  | cons line lines ih =>
    obtain ⟨hline, hlines⟩ := List.forall_mem_cons.1 h
    have hreturn : '\n' ∉ line ++ ['\r'] := by simpa using hline
    have hended : ended (line :: lines) = (line ++ ['\r']) ++ '\n' :: ended lines := by
      rw [ended_cons]
      simp
    rw [hended, Text.lineChars_append hreturn, Text.dropReturn_append_return, ih hlines]

/-! ### Breaking a line -/

/-- A text broken into lines: the first one, and what the others hold behind their blank. -/
structure Broken (room : Nat) (text first : List Char) (more : List (List Char)) : Prop where
  fold_eq : fold room text ++ ['\r', '\n'] = ended (first :: more.map (' ' :: ·))
  joined : first ++ more.flatten = text
  first_le : utf8Len first ≤ room
  more_le : ∀ piece ∈ more, utf8Len piece ≤ 71

/-- Every text can be broken so, by recursion as `fold` goes through it. -/
theorem exists_broken (room : Nat) (text : List Char) :
    ∃ first more, Broken room text first more := by
  fun_induction fold room text with
  -- Nothing is left, so the line is empty.
  | case1 room => exact ⟨[], [], rfl, rfl, Nat.zero_le room, by simp⟩
  | case2 room c rest hfits ih =>
    -- One more character fits on the line.
    obtain ⟨first, more, h⟩ := ih
    refine ⟨c :: first, more, ?_, ?_, ?_, h.more_le⟩
    · rw [fold, if_pos hfits, List.cons_append, h.fold_eq]
      rfl
    · rw [List.cons_append, h.joined]
    · have := h.first_le
      rw [String.utf8Len_cons]
      omega
  | case3 room c rest hfull ih =>
    -- The character starts the next line, behind a blank.
    obtain ⟨first, more, h⟩ := ih
    refine ⟨[], (c :: first) :: more, ?_, ?_, Nat.zero_le room, ?_⟩
    · rw [fold, if_neg hfull, List.map_cons, ended_cons]
      show '\r' :: '\n' :: ' ' :: c :: (fold (71 - c.utf8Size) rest ++ ['\r', '\n']) = _
      rw [h.fold_eq]
      rfl
    · rw [List.nil_append, List.flatten_cons, List.cons_append, h.joined]
    · refine List.forall_mem_cons.2 ⟨?_, h.more_le⟩
      have := h.first_le
      have := c.utf8Size_le_four
      rw [String.utf8Len_cons]
      omega

namespace Broken

/-- The pieces of a text without line feeds have none. -/
theorem no_feed (h : Broken room text first more) (hfeed : '\n' ∉ text) :
    '\n' ∉ first ∧ ∀ piece ∈ more, '\n' ∉ piece := by
  rw [← h.joined, List.mem_append, List.mem_flatten, not_or] at hfeed
  exact ⟨hfeed.1, fun piece hpiece hmem => hfeed.2 ⟨piece, hpiece, hmem⟩⟩

/-- The first piece starts as the text does, so with a blank only if the text does. -/
theorem first_head (h : Broken room text first more)
    (hhead : ∀ c ∈ text.head?, ¬ Text.isBlank c) : ∀ c ∈ first.head?, ¬ Text.isBlank c := by
  intro c hc
  refine hhead c ?_
  rw [← h.joined, List.head?_append, hc]
  rfl

end Broken

/-- There is no break before the room is used up. -/
theorem fold_append (h : utf8Len front ≤ room) (back : List Char) :
    fold room (front ++ back) = front ++ fold (room - utf8Len front) back := by
  induction front generalizing room with
  | nil => rfl
  | cons c front ih =>
    rw [String.utf8Len_cons] at h
    rw [List.cons_append, fold, if_pos (by omega), ih (by omega), String.utf8Len_cons,
      Nat.sub_sub, Nat.add_comm c.utf8Size, List.cons_append]

/-! ### Attributes -/

/-- What every attribute that is read is like. -/
structure Attribute.Plain (a : Attribute) : Prop where
  colon_not_mem : ':' ∉ a.name
  blank_ne_head : a.name.head? ≠ some ' '
  name_no_feed : '\n' ∉ a.name
  value_no_feed : '\n' ∉ a.value

/-- The attributes that are read back once they are written: the name and what separates it from
the value fit on a line, and the value does not start with white space. -/
structure Attribute.Foldable (a : Attribute) : Prop where
  name_le : utf8Len a.name ≤ 70
  value_head : ∀ c ∈ a.value.head?, ¬ Text.isBlank c

instance : DecidablePred Attribute.Foldable := fun a =>
  decidable_of_iff (utf8Len a.name ≤ 70 ∧ a.value.head?.all fun c => !Text.isBlank c) <| by
    rw [Option.all_eq_true]
    exact ⟨fun ⟨hname, hvalue⟩ => ⟨hname, by simpa using hvalue⟩,
      fun ⟨hname, hvalue⟩ => ⟨hname, by simpa using hvalue⟩⟩

/-- A line that is not empty and does not start with a blank is an attribute. -/
theorem readLines_cons {current : Section} (hne : line ≠ []) (hhead : line.head? ≠ some ' ')
    (rest : List (List Char)) :
    readLines current (line :: rest) = readLines (readAttribute line :: current) rest := by
  rw [readLines]
  · exact hne
  · rintro more rfl
    exact hhead rfl

/-- A value that starts with no blank loses nothing. -/
theorem dropWhile_isBlank (h : ∀ c ∈ text.head?, ¬ Text.isBlank c) :
    text.dropWhile Text.isBlank = text := by
  cases text with
  | nil => rfl
  | cons c text => exact List.dropWhile_cons_of_neg (h c rfl)

/-- The first line of an attribute. -/
theorem readAttribute_append {name value : List Char} (hname : ':' ∉ name)
    (hvalue : ∀ c ∈ value.head?, ¬ Text.isBlank c) :
    readAttribute (name ++ ':' :: ' ' :: value) = { name, value } := by
  have hblank : Text.isBlank ' ' = true := rfl
  rw [readAttribute, Text.splitFirst?_eq_some_iff.2 ⟨hname, rfl⟩]
  show Attribute.mk name ((' ' :: value).dropWhile Text.isBlank) = _
  rw [List.dropWhile_cons_of_pos hblank, dropWhile_isBlank hvalue]

/-- The lines that go on with a value. -/
theorem readLines_more (a : Attribute) (current : Section) (more rest : List (List Char)) :
    readLines (a :: current) (more.map (' ' :: ·) ++ rest) =
      readLines ({ a with value := a.value ++ more.flatten } :: current) rest := by
  induction more generalizing a with
  | nil => simp
  | cons piece more ih =>
    rw [List.map_cons, List.cons_append, readLines, extend, ih]
    simp

/-- The lines of an attribute whose value is broken. -/
def attributeLines (name first : List Char) (more : List (List Char)) : List (List Char) :=
  (name ++ ':' :: ' ' :: first) :: more.map (' ' :: ·)

/-- The first line is as long as the name, a colon, a blank and the first piece. -/
theorem utf8Len_firstLine (name first : List Char) :
    utf8Len (name ++ ':' :: ' ' :: first) = utf8Len name + 2 + utf8Len first := by
  rw [String.utf8Len_append, String.utf8Len_cons, String.utf8Len_cons]
  show _ + (_ + 1 + 1) = _
  omega

/-- The name, the colon and the blank are on the first line, and the value is broken behind them. -/
theorem renderAttribute_eq (hname : utf8Len a.name ≤ 70)
    (h : Broken (70 - utf8Len a.name) a.value first more) :
    renderAttribute a = ended (attributeLines a.name first more) := by
  have hlen : utf8Len (a.name ++ [':', ' ']) = utf8Len a.name + 2 := utf8Len_firstLine a.name []
  have hroom : 72 - utf8Len (a.name ++ [':', ' ']) = 70 - utf8Len a.name := by omega
  have hsplit : a.name ++ ':' :: ' ' :: a.value = (a.name ++ [':', ' ']) ++ a.value := by simp
  rw [renderAttribute, hsplit, fold_append (by omega), List.append_assoc, hroom, h.fold_eq,
    attributeLines, ended_cons, ended_cons]
  simp

/-- The lines of an attribute fit into 72 bytes and hold no line feed. -/
theorem physical_attributeLines (hplain : a.Plain) (hname : utf8Len a.name ≤ 70)
    (h : Broken (70 - utf8Len a.name) a.value first more) :
    Physical (attributeLines a.name first more) := by
  obtain ⟨hfirst, hmore⟩ := h.no_feed hplain.value_no_feed
  constructor
  -- No line feed comes in with the name, the value or its pieces.
  · refine List.forall_mem_cons.2 ⟨?_, List.forall_mem_map.2 fun piece hpiece => ?_⟩
    · simpa using ⟨hplain.name_no_feed, hfirst⟩
    · simpa using hmore piece hpiece
  -- The first line has the name, the colon, a blank and its piece, the others a blank and theirs.
  · refine List.forall_mem_cons.2 ⟨?_, List.forall_mem_map.2 fun piece hpiece => ?_⟩
    · have hle := h.first_le
      rw [utf8Len_firstLine]
      omega
    · exact Nat.add_le_add_right (h.more_le piece hpiece) 1

/-- An attribute is read from its lines, whatever comes behind them. -/
theorem readLines_attributeLines (hplain : a.Plain) (h : Broken room a.value first more)
    (hfirst : ∀ c ∈ first.head?, ¬ Text.isBlank c) (current : Section)
    (rest : List (List Char)) :
    readLines current (attributeLines a.name first more ++ rest) =
      readLines (a :: current) rest := by
  have hne : a.name ++ ':' :: ' ' :: first ≠ [] :=
    List.append_ne_nil_of_right_ne_nil _ (List.cons_ne_nil _ _)
  -- The first line does not begin with a blank, so it continues no attribute.
  have hhead : (a.name ++ ':' :: ' ' :: first).head? ≠ some ' ' := by
    rw [List.head?_append]
    have hblank := hplain.blank_ne_head
    cases hname : a.name.head? with
    | none => simp
    | some c => simpa [hname] using hblank
  rw [attributeLines, List.cons_append, readLines_cons hne hhead,
    readAttribute_append hplain.colon_not_mem hfirst, readLines_more, h.joined]

/-- The lines of an attribute, and what is read from them. -/
theorem exists_lines_attribute (hplain : a.Plain) (hfold : a.Foldable) :
    ∃ lines, renderAttribute a = ended lines ∧ Physical lines ∧
      ∀ current rest, readLines current (lines ++ rest) = readLines (a :: current) rest := by
  obtain ⟨first, more, h⟩ := exists_broken (70 - utf8Len a.name) a.value
  exact ⟨_, renderAttribute_eq hfold.name_le h, physical_attributeLines hplain hfold.name_le h,
    readLines_attributeLines hplain h (h.first_head hfold.value_head)⟩

/-! ### Sections -/

/-- The attributes of a section are read from their lines, one after the other. -/
theorem exists_lines_attributes (h : ∀ a ∈ s, a.Plain ∧ a.Foldable) :
    ∃ lines, s.flatMap renderAttribute = ended lines ∧ Physical lines ∧ ∀ current rest,
      readLines current (lines ++ rest) = readLines (s.reverse ++ current) rest := by
  induction s with
  | nil => exact ⟨[], rfl, ⟨by simp, by simp⟩, fun _ _ => rfl⟩
  | cons a s ih =>
    obtain ⟨ha, hs⟩ := List.forall_mem_cons.1 h
    obtain ⟨lines, hrender, hphysical, hread⟩ := exists_lines_attribute ha.1 ha.2
    obtain ⟨lines', hrender', hphysical', hread'⟩ := ih hs
    refine ⟨lines ++ lines', ?_, hphysical.append hphysical', fun current rest => ?_⟩
    -- What is written.
    · rw [List.flatMap_cons, hrender, hrender', ended_append]
    -- What is read.
    · rw [List.append_assoc, hread, hread', List.reverse_cons, List.append_assoc]
      rfl

/-- The sections that a text can hold. -/
def Section.Writable (s : Section) : Prop :=
  s ≠ [] ∧ ∀ a ∈ s, a.Plain ∧ a.Foldable

/-- Sections are read from their lines, by induction on their list. -/
theorem exists_lines_sections (h : ∀ s ∈ sections, Section.Writable s) :
    ∃ lines, sections.flatMap renderSection = ended lines ∧ Physical lines ∧
      readLines [] lines = sections := by
  induction sections with
  | nil => exact ⟨[], rfl, ⟨by simp, by simp⟩, rfl⟩
  | cons s sections ih =>
    obtain ⟨⟨hne, hs⟩, hsections⟩ := List.forall_mem_cons.1 h
    obtain ⟨lines, hrender, hphysical, hread⟩ := exists_lines_attributes hs
    obtain ⟨lines', hrender', hphysical', hread'⟩ := ih hsections
    -- The blank line between two sections is what closes the first.
    have hblank : Physical [[]] := ⟨by simp, by simp⟩
    refine ⟨lines ++ ([[]] ++ lines'), ?_, hphysical.append (hblank.append hphysical'), ?_⟩
    · rw [List.flatMap_cons, renderSection, hrender, hrender', ended_append, ended_append,
        List.append_assoc]
      rfl
    · have hclose : s.reverse.isEmpty = false := by simpa using hne
      rw [hread, List.append_nil, List.singleton_append, readLines, hread', close, hclose,
        List.reverse_reverse]
      rfl

/-- Writable sections are read back, from lines of at most 72 bytes. -/
theorem parse_render (h : ∀ s ∈ sections, Section.Writable s) :
    parse (render sections) = sections ∧
      ∃ lines, (render sections).toList = ended lines ∧ Physical lines := by
  obtain ⟨lines, hrender, hphysical, hread⟩ := exists_lines_sections h
  have htext : (render sections).toList = ended lines := by
    rw [render, String.toList_ofList, hrender]
  exact ⟨by rw [parse, htext, lineChars_ended hphysical.no_feed, hread], lines, htext, hphysical⟩

/-! ### What is read -/

/-- A line gives a name without colons and a value without line feeds. -/
theorem plain_readAttribute (hne : line.head? ≠ some ' ') (hfeed : '\n' ∉ line) :
    (readAttribute line).Plain := by
  unfold readAttribute
  split
  -- A line with a colon, and one that is all name.
  · next name value hsplit =>
    obtain ⟨hcolon, rfl⟩ := Text.splitFirst?_eq_some_iff.1 hsplit
    rw [List.mem_append, List.mem_cons, not_or, not_or] at hfeed
    refine ⟨hcolon, fun hhead => hne ?_, hfeed.1, fun hmem => ?_⟩
    · rw [List.head?_append, hhead]
      rfl
    · exact hfeed.2.2 (List.dropWhile_subset _ hmem)
  · next hsplit =>
    exact ⟨Text.not_mem_of_splitFirst?_eq_none hsplit, hne, hfeed, List.not_mem_nil⟩

/-- Going on with a value without line feeds adds none. -/
theorem plain_extend (h : ∀ a ∈ s, a.Plain) (hfeed : '\n' ∉ text) :
    ∀ a ∈ extend text s, a.Plain := by
  cases s with
  | nil => exact h
  | cons last before =>
    obtain ⟨hlast, hbefore⟩ := List.forall_mem_cons.1 h
    refine List.forall_mem_cons.2 ⟨{ hlast with value_no_feed := ?_ }, hbefore⟩
    exact fun hmem => (List.mem_append.1 hmem).elim hlast.value_no_feed hfeed

/-- Closing a section leaves no section empty, and the attributes as they are. -/
theorem forall_mem_close {current : Section} (h : ∀ a ∈ current, a.Plain)
    (hsections : ∀ s ∈ sections, s ≠ [] ∧ ∀ a ∈ s, a.Plain) :
    ∀ s ∈ close current sections, s ≠ [] ∧ ∀ a ∈ s, a.Plain := by
  unfold close
  split
  · exact hsections
  · next hne =>
    refine List.forall_mem_cons.2 ⟨⟨by simpa using hne, ?_⟩, hsections⟩
    exact fun a ha => h a (List.mem_reverse.1 ha)

/-- Attributes that are read from lines without line feeds are plain. -/
theorem plain_readLines {current : Section} (hcurrent : ∀ a ∈ current, a.Plain)
    (hlines : ∀ line ∈ lines, '\n' ∉ line) :
    ∀ s ∈ readLines current lines, s ≠ [] ∧ ∀ a ∈ s, a.Plain := by
  -- One case each for the end, an empty line, a continued line and a new attribute.
  fun_induction readLines current lines with
  | case1 current => exact forall_mem_close hcurrent (by simp)
  | case2 current rest ih =>
    exact forall_mem_close hcurrent (ih (by simp) (List.forall_mem_cons.1 hlines).2)
  | case3 current more rest ih =>
    obtain ⟨hline, hrest⟩ := List.forall_mem_cons.1 hlines
    exact ih (plain_extend hcurrent fun hmem => hline (List.mem_cons_of_mem _ hmem)) hrest
  | case4 current line rest hne hblank ih =>
    obtain ⟨hline, hrest⟩ := List.forall_mem_cons.1 hlines
    refine ih (List.forall_mem_cons.2 ⟨plain_readAttribute ?_ hline, hcurrent⟩) hrest
    intro hhead
    obtain ⟨more, rfl⟩ := List.head?_eq_some_iff.1 hhead
    exact hblank more rfl

/-- The sections of a text are not empty, and their attributes could be read. -/
theorem plain_parse (text : String) : ∀ s ∈ parse text, s ≠ [] ∧ ∀ a ∈ s, a.Plain :=
  plain_readLines (by simp) fun _ => Text.not_mem_of_mem_lineChars

/-! ### New names -/

/-- An attribute of the first section that holds a class name. -/
def Attribute.HoldsClass (a : Attribute) : Prop :=
  sameName a.name "Main-Class" ∨ sameName a.name "Launcher-Agent-Class" ∨
    sameName a.name "Premain-Class" ∨ sameName a.name "Agent-Class"

/-- An attribute with a name that ends in `-Digest` in any case. -/
def Attribute.IsDigest (a : Attribute) : Prop :=
  "-digest".toList <:+ a.name.map Char.toLower

instance : DecidablePred Attribute.IsDigest :=
  fun a => inferInstanceAs (Decidable ("-digest".toList <:+ a.name.map Char.toLower))

/-- An attribute of the first section and what becomes of it. -/
structure Attribute.Relabels (mapClass : String → Option String) (old new : Attribute) : Prop where
  name_eq : new.name = old.name
  value_class : old.HoldsClass →
    new.value = (mapDotted mapClass (String.ofList old.value)).toList
  value_other : ¬ old.HoldsClass → new.value = old.value

/-- The sections of a manifest and what becomes of them. In the first one the attributes that hold
a class name have the new one, and in the others no digest is left. Of those, a section that has
nothing but names left is left out. -/
structure Relabels (mapClass : String → Option String) (old new : List Section) : Prop where
  first : Option.Rel (List.Forall₂ (Attribute.Relabels mapClass)) old.head? new.head?
  rest : new.tail = (old.tail.map fun s => s.filter fun a => ¬ a.IsDigest).filter
    fun s => ∃ a ∈ s, ¬ sameName a.name "Name"

/-- The attributes that are looked for are those that hold classes. -/
theorem any_classAttributes (a : Attribute) :
    classAttributes.any (sameName a.name) = true ↔ a.HoldsClass := by
  simp [classAttributes, Attribute.HoldsClass]

/-- A digest is told by the end of its name, in any case. -/
theorem isDigest_eq (a : Attribute) : isDigest a = decide a.IsDigest := by
  rw [Bool.eq_iff_iff, decide_eq_true_iff, isDigest, Option.isSome_iff_exists]
  constructor
  · rintro ⟨front, h⟩
    exact ⟨front, (Text.stripBack?_eq_some_iff.1 h).symm⟩
  · rintro ⟨front, h⟩
    exact ⟨front, Text.stripBack?_eq_some_iff.2 h.symm⟩

/-- An attribute that holds a class gets its new name, and any other stays. -/
theorem relabels_relabelAttribute (mapClass : String → Option String) (a : Attribute) :
    a.Relabels mapClass (relabelAttribute mapClass a) := by
  unfold relabelAttribute
  split
  · next h => exact ⟨rfl, fun _ => rfl, fun hother => absurd ((any_classAttributes a).1 h) hother⟩
  · next h => exact ⟨rfl, fun hclass => absurd ((any_classAttributes a).2 hclass) h, fun _ => rfl⟩

/-- A section is kept if its name is not all that is left without digests. -/
theorem dropDigests_eq_some_iff {kept : Section} :
    dropDigests s = some kept ↔
      kept = s.filter (fun a => ¬ a.IsDigest) ∧ ∃ a ∈ kept, ¬ sameName a.name "Name" := by
  -- Digests are told by the name without regard to case.
  have hkept : s.filter (!isDigest ·) = s.filter fun a => ¬ a.IsDigest := by
    refine List.filter_congr fun a _ => ?_
    rw [isDigest_eq, decide_not]
  simp only [dropDigests, hkept, ite_eq_iff, reduceCtorEq, and_false, false_or, Option.some.injEq]
  constructor
  · rintro ⟨hall, rfl⟩
    exact ⟨rfl, by simpa [and_assoc] using hall⟩
  · rintro ⟨rfl, hany⟩
    exact ⟨by simpa [and_assoc] using hany, rfl⟩

/-- Of all sections the digests are left out, and then the sections with nothing but a name. -/
theorem filterMap_dropDigests (sections : List Section) :
    sections.filterMap dropDigests =
      (sections.map fun s => s.filter fun a => ¬ a.IsDigest).filter
        fun s => ∃ a ∈ s, ¬ sameName a.name "Name" := by
  rw [← List.filterMap_eq_filter, List.filterMap_map]
  refine List.filterMap_congr fun s _ => Option.ext fun kept => ?_
  rw [dropDigests_eq_some_iff, Function.comp_apply, Option.guard_eq_some_iff, decide_eq_true_iff]
  -- A section without digests is kept or dropped as its attributes say.
  constructor
  · rintro ⟨rfl, hany⟩
    exact ⟨rfl, hany⟩
  · rintro ⟨rfl, hany⟩
    exact ⟨rfl, hany⟩

/-- The sections under the new names are what they should be. -/
theorem relabels_relabel (mapClass : String → Option String) (sections : List Section) :
    Relabels mapClass sections (relabel mapClass sections) := by
  cases sections with
  | nil => exact ⟨.none, rfl⟩
  | cons first rest =>
    refine ⟨.some ?_, filterMap_dropDigests rest⟩
    rw [List.forall₂_map_right_iff, List.forall₂_same]
    exact fun a _ => relabels_relabelAttribute mapClass a

/-! ### New names that can be written -/

/-- No new class name has a line feed in it or starts with white space. A carriage return that no
line feed follows is part of a line. -/
def PlainNames (mapClass : String → Option String) : Prop :=
  ∀ old new, mapClass old = some new →
    '\n' ∉ new.toList ∧ ∀ c ∈ new.toList.head?, ¬ Text.isBlank c

/-- The dotted form of a name that can be written can be written. -/
theorem mapDotted_plain (hnames : PlainNames mapClass) {value : List Char} (hfeed : '\n' ∉ value)
    (hhead : ∀ c ∈ value.head?, ¬ Text.isBlank c) :
    '\n' ∉ (mapDotted mapClass (String.ofList value)).toList ∧
      ∀ c ∈ (mapDotted mapClass (String.ofList value)).toList.head?, ¬ Text.isBlank c := by
  unfold mapDotted
  split
  · next new hnew =>
    obtain ⟨hfeed', hhead'⟩ := hnames _ _ hnew
    rw [Text.replaceChar, String.toList_ofList]
    constructor
    · intro hmem
      obtain ⟨c, hc, heq⟩ := List.mem_map.1 hmem
      -- A line feed is neither a dot nor a slash, so it would be in the new name.
      split at heq
      · exact absurd heq (by decide)
      · exact hfeed' (heq ▸ hc)
    · intro c hc
      rw [List.head?_map, Option.mem_def, Option.map_eq_some_iff] at hc
      obtain ⟨d, hd, rfl⟩ := hc
      -- Neither is a dot a blank.
      split
      · decide
      · exact hhead' d hd
  · rw [String.toList_ofList]
    exact ⟨hfeed, hhead⟩

/-- An attribute that can be written can be written under new names. -/
theorem writable_relabelAttribute (hnames : PlainNames mapClass) (h : a.Plain ∧ a.Foldable) :
    (relabelAttribute mapClass a).Plain ∧ (relabelAttribute mapClass a).Foldable := by
  obtain ⟨hplain, hfold⟩ := h
  unfold relabelAttribute
  split
  · obtain ⟨hfeed, hhead⟩ := mapDotted_plain hnames hplain.value_no_feed hfold.value_head
    exact ⟨{ hplain with value_no_feed := hfeed }, { hfold with value_head := hhead }⟩
  · exact ⟨hplain, hfold⟩

/-- Under new names that can be written, sections can be written that could before. -/
theorem writable_relabel (hnames : PlainNames mapClass)
    (h : ∀ s ∈ sections, Section.Writable s) :
    ∀ s ∈ relabel mapClass sections, Section.Writable s := by
  cases sections with
  | nil => exact h
  | cons first rest =>
    -- The first section only changes its attributes.
    obtain ⟨⟨hne, hfirst⟩, hrest⟩ := List.forall_mem_cons.1 h
    refine List.forall_mem_cons.2 ⟨⟨by simpa using hne, ?_⟩, fun kept hkept => ?_⟩
    · exact List.forall_mem_map.2 fun a ha => writable_relabelAttribute hnames (hfirst a ha)
    -- A later section is what is left of one without its digests.
    · obtain ⟨s, hs, hdrop⟩ := List.mem_filterMap.1 hkept
      obtain ⟨rfl, a, ha, -⟩ := dropDigests_eq_some_iff.1 hdrop
      exact ⟨List.ne_nil_of_mem ha, fun a ha => (hrest s hs).2 a (List.mem_of_mem_filter ha)⟩

/-! ### Manifests as bytes -/

/-- A text is read from its bytes. -/
theorem decode?_ofText (text : String) : Utf8.decode? (Bytes.ofText text) = some text := by
  exact dif_pos text.isValidUTF8

/-- A manifest whose attributes can be written keeps its meaning under new names that can be
written. All lines are of at most 72 bytes, and what is read from them are the sections of the
manifest under the new names. -/
theorem keepsMeaning_relabelManifest {bytes : Bytes} {text : String}
    (htext : Utf8.decode? bytes = some text)
    (hfold : ∀ s ∈ parse text, ∀ a ∈ s, a.Foldable) (hnames : PlainNames mapClass) :
    ∃ out lines, Utf8.decode? (Resource.relabelManifest mapClass bytes) = some out ∧
      out.toList = ended lines ∧ Physical lines ∧
      Relabels mapClass (parse text) (parse out) := by
  -- What was read from lines is plain, and `hfold` says that it can be written.
  have hwritable : ∀ s ∈ parse text, Section.Writable s := fun s hs =>
    ⟨(plain_parse text s hs).1, fun a ha => ⟨(plain_parse text s hs).2 a ha, hfold s hs a ha⟩⟩
  obtain ⟨hparse, lines, hlines, hphysical⟩ := parse_render (writable_relabel hnames hwritable)
  refine ⟨_, lines, ?_, hlines, hphysical, ?_⟩
  · rw [Resource.relabelManifest, Resource.onText, htext]
    exact decode?_ofText _
  · rw [hparse]
    exact relabels_relabel mapClass (parse text)

/-- A manifest of a main class, with the digests of two entries. -/
def digested : String :=
  "Manifest-Version: 1.0\r\nMain-Class: a.B\r\n\r\nName: a/B.class\r\nSHA-256-Digest: 9f86\r\n" ++
    "\r\nName: a/\r\nSealed: true\r\nSHA-256-Digest: e3b0\r\n"

/-- Gives the main class a name that takes more than one line. -/
def nameMain (old : String) : Option String :=
  if old = "a/B" then
    some "a/package/with/a/name/that/does/not/fit/on/one/line/of/a/manifest/Main"
  else none

/-- What `digested` is written as. One entry has nothing but its name left. -/
def undigested : String :=
  "Manifest-Version: 1.0\r\n" ++
    "Main-Class: a.package.with.a.name.that.does.not.fit.on.one.line.of.a.man\r\n" ++
    " ifest.Main\r\n\r\nName: a/\r\nSealed: true\r\n\r\n"

/-- The three sections of `digested`. -/
theorem parse_digested : parse digested =
    [[⟨"Manifest-Version".toList, "1.0".toList⟩, ⟨"Main-Class".toList, "a.B".toList⟩],
      [⟨"Name".toList, "a/B.class".toList⟩, ⟨"SHA-256-Digest".toList, "9f86".toList⟩],
      [⟨"Name".toList, "a/".toList⟩, ⟨"Sealed".toList, "true".toList⟩,
        ⟨"SHA-256-Digest".toList, "e3b0".toList⟩]] := by
  decide +kernel

/-- The two sections of `undigested`. -/
theorem parse_undigested : parse undigested =
    [[⟨"Manifest-Version".toList, "1.0".toList⟩, ⟨"Main-Class".toList,
        "a.package.with.a.name.that.does.not.fit.on.one.line.of.a.manifest.Main".toList⟩],
      [⟨"Name".toList, "a/".toList⟩, ⟨"Sealed".toList, "true".toList⟩]] := by
  decide +kernel

/-- The manifest is written with the new name and without the digests. -/
theorem relabelManifest_digested :
    Utf8.decode? (Resource.relabelManifest nameMain (Bytes.ofText digested)) =
      some undigested := by
  have hrender : render (relabel nameMain (parse digested)) = undigested := by
    rw [parse_digested]
    decide +kernel
  rw [Resource.relabelManifest, Resource.onText, decode?_ofText digested]
  show Utf8.decode? (Bytes.ofText (render (relabel nameMain (parse digested)))) = _
  rw [hrender, decode?_ofText]

/-- The new name of the main class goes on in a second line, and no digest is left. -/
theorem keepsMeaning_relabelManifest_digested :
    Utf8.decode? (Bytes.ofText digested) = some digested ∧
      (∀ s ∈ parse digested, ∀ a ∈ s, a.Foldable) ∧ PlainNames nameMain ∧
      Utf8.decode? (Resource.relabelManifest nameMain (Bytes.ofText digested)) =
        some undigested ∧
      (∃ lines, undigested.toList = ended lines ∧ Physical lines) ∧
      Relabels nameMain (parse digested) (parse undigested) ∧
      parse undigested =
        [[⟨"Manifest-Version".toList, "1.0".toList⟩, ⟨"Main-Class".toList,
            "a.package.with.a.name.that.does.not.fit.on.one.line.of.a.manifest.Main".toList⟩],
          [⟨"Name".toList, "a/".toList⟩, ⟨"Sealed".toList, "true".toList⟩]] := by
  have htext := decode?_ofText digested
  have hfold : ∀ s ∈ parse digested, ∀ a ∈ s, a.Foldable := by
    rw [parse_digested]
    decide
  have hnames : PlainNames nameMain := by
    intro old new hnew
    unfold nameMain at hnew
    split at hnew
    · cases hnew
      simp [Text.isBlank]
    · cases hnew
  obtain ⟨out, lines, hout, hlines, hphysical, hrelabels⟩ :=
    keepsMeaning_relabelManifest htext hfold hnames
  -- The text that is there by the theorem is the one that was computed.
  obtain rfl := Option.some.inj (relabelManifest_digested.symm.trans hout)
  exact ⟨htext, hfold, hnames, hout, ⟨lines, hlines, hphysical⟩, hrelabels, parse_undigested⟩

end Relabel.Manifest
