import Mathlib.Data.List.DropRight
import Mathlib.Data.List.TakeDrop
import Relabel.Text.Split

/-!
# Pieces and lines

Which pieces a text is cut into, said without the way they are found: they hold no separator and
make up the text with one between them. Lines differ from pieces in what follows the last line feed,
which is a line only where it is not empty.

## Main results

- `splitFirst?_eq_some_iff`: the parts before and after the first separator.
- `splitChars_eq_iff`: the pieces between separators.
- `Lines.map_lineChars`: the lines of a text, as far as they differ by more than line endings.
- `dropEndWhile_eq_iff`: what is left without the characters of a kind at the end.
- `trimChars_eq_nil_iff`: a text of white space only.
-/

namespace Relabel.Text

variable {sep c : Char} {s before after piece line text : List Char}

/-! ### Cutting at a character -/

/-- What stands before the first separator holds none. -/
theorem span_ne_eq_cons_iff :
    s.span (· ≠ sep) = (before, c :: after) ↔
      c = sep ∧ sep ∉ before ∧ s = before ++ sep :: after := by
  rw [List.span_eq_takeWhile_dropWhile, Prod.mk.injEq]
  constructor
  -- What is dropped to begins with the first character that is the separator.
  · rintro ⟨rfl, hdrop⟩
    have hhead := List.head?_dropWhile_not (· ≠ sep) s
    rw [hdrop] at hhead
    obtain rfl : c = sep := by simpa using hhead
    refine ⟨rfl, fun hmem => ?_, ?_⟩
    · have hne := List.all_eq_true.1 (List.all_takeWhile (p := (· ≠ c)) (l := s)) c hmem
      simp at hne
    · rw [← hdrop, List.takeWhile_append_dropWhile]
  · rintro ⟨rfl, hbefore, rfl⟩
    have hall : ∀ d ∈ before, decide (d ≠ c) = true := fun d hd => by
      simpa using ne_of_mem_of_not_mem hd hbefore
    rw [List.takeWhile_append_of_pos hall, List.dropWhile_append_of_pos hall]
    simp

/-- A text is split at its first separator. -/
theorem splitFirst?_eq_some_iff :
    splitFirst? sep s = some (before, after) ↔ sep ∉ before ∧ s = before ++ sep :: after := by
  unfold splitFirst?
  split
  · next b c a hspan =>
    obtain ⟨-, hb, rfl⟩ := span_ne_eq_cons_iff.1 hspan
    constructor
    · rintro ⟨⟩
      exact ⟨hb, rfl⟩
    · rintro ⟨hbefore, heq⟩
      -- The separator that the search stops at is the first one, so the two splits agree.
      have hspan' := (span_ne_eq_cons_iff (c := sep)).2 ⟨rfl, hbefore, heq⟩
      rw [hspan] at hspan'
      cases hspan'
      rfl
  · next b hspan =>
    refine ⟨fun h => (by cases h), ?_⟩
    rintro ⟨hbefore, heq⟩
    have hspan' := (span_ne_eq_cons_iff (c := sep)).2 ⟨rfl, hbefore, heq⟩
    rw [hspan] at hspan'
    cases hspan'

/-- A text that is not split holds no separator. -/
theorem not_mem_of_splitFirst?_eq_none (h : splitFirst? sep s = none) : sep ∉ s := by
  intro hmem
  obtain ⟨before, after, rfl, hbefore⟩ := List.eq_append_cons_of_mem hmem
  rw [splitFirst?_eq_some_iff.2 ⟨hbefore, rfl⟩] at h
  cases h

/-! ### Pieces -/

/-- A text has no separator in it, or a piece without one before the first. -/
theorem induction_pieces (sep : Char) {P : List Char → Prop} (last : ∀ s, sep ∉ s → P s)
    (cons : ∀ piece rest, sep ∉ piece → P rest → P (piece ++ sep :: rest)) (s : List Char) :
    P s := by
  by_cases hsep : sep ∈ s
  · obtain ⟨piece, rest, rfl, hpiece⟩ := List.eq_append_cons_of_mem hsep
    exact cons piece rest hpiece (induction_pieces sep last cons rest)
  · exact last s hsep
termination_by s.length
decreasing_by
  subst s
  rw [List.length_append, List.length_cons]
  omega

theorem splitChars_cons (sep c : Char) (s : List Char) :
    splitChars sep (c :: s) =
      if c = sep then [] :: splitChars sep s else consFirst c (splitChars sep s) :=
  rfl

/-- A text without the separator is one piece. -/
theorem splitChars_of_not_mem (h : sep ∉ s) : splitChars sep s = [s] := by
  induction s with
  | nil => rfl
  | cons c s ih =>
    rw [List.mem_cons, not_or] at h
    rw [splitChars_cons, if_neg (Ne.symm h.1), ih h.2, consFirst]

/-- A piece ends at its separator. -/
theorem splitChars_append (h : sep ∉ piece) (rest : List Char) :
    splitChars sep (piece ++ sep :: rest) = piece :: splitChars sep rest := by
  induction piece with
  | nil => rw [List.nil_append, splitChars_cons, if_pos rfl]
  | cons c piece ih =>
    rw [List.mem_cons, not_or] at h
    rw [List.cons_append, splitChars_cons, if_neg (Ne.symm h.1), ih h.2, consFirst]

theorem splitChars_ne_nil (sep : Char) (s : List Char) : splitChars sep s ≠ [] := by
  induction s using induction_pieces sep with
  | last s h => simp [splitChars_of_not_mem h]
  | cons piece rest h => simp [splitChars_append h]

/-- A text is cut into the pieces without a separator that make it up with separators between
them. -/
theorem splitChars_eq_iff {pieces : List (List Char)} :
    splitChars sep s = pieces ↔
      pieces ≠ [] ∧ (∀ piece ∈ pieces, sep ∉ piece) ∧ s = [sep].intercalate pieces := by
  constructor
  · rintro rfl
    induction s using induction_pieces sep with
    | last s h => simp [splitChars_of_not_mem h, h]
    | cons piece rest h ih =>
      obtain ⟨hne, hfree, hrest⟩ := ih
      obtain ⟨first, others, hpieces⟩ := List.exists_cons_of_ne_nil hne
      rw [splitChars_append h]
      -- There is always one piece more than separators, so the rest has a first piece to join to.
      refine ⟨List.cons_ne_nil _ _, List.forall_mem_cons.2 ⟨h, hfree⟩, ?_⟩
      rw [hpieces, List.intercalate_cons_cons, ← hpieces, ← hrest]
      simp
  · rintro ⟨hne, hfree, rfl⟩
    induction pieces with
    | nil => exact absurd rfl hne
    | cons piece pieces ih =>
      obtain ⟨hpiece, hfree⟩ := List.forall_mem_cons.1 hfree
      cases pieces with
      | nil => rw [List.intercalate_singleton, splitChars_of_not_mem hpiece]
      | cons next others =>
        rw [List.intercalate_cons_cons, List.append_assoc, List.singleton_append,
          splitChars_append hpiece, ih (List.cons_ne_nil _ _) hfree]

/-- A character of a text is a separator or in one of the pieces. -/
theorem exists_mem_splitChars (hc : c ∈ s) :
    c = sep ∨ ∃ piece ∈ splitChars sep s, c ∈ piece := by
  induction s using induction_pieces sep with
  | last s h =>
    rw [splitChars_of_not_mem h]
    exact .inr ⟨s, List.mem_singleton_self s, hc⟩
  | cons piece rest h ih =>
    rw [splitChars_append h]
    rw [List.mem_append, List.mem_cons] at hc
    rcases hc with hpiece | hsep | hrest
    · exact .inr ⟨piece, List.mem_cons_self, hpiece⟩
    · exact .inl hsep
    · refine (ih hrest).imp_right fun ⟨later, hlater, hmem⟩ => ?_
      exact ⟨later, List.mem_cons_of_mem _ hlater, hmem⟩

/-! ### Lines -/

/-- The lines of a text with all that stands before the line feeds. The last one may do without a
line feed if it is not empty. -/
inductive Lines : List Char → List (List Char) → Prop
  | nil : Lines [] []
  | last {line : List Char} (hline : '\n' ∉ line) (hne : line ≠ []) : Lines line [line]
  | cons {line rest : List Char} {lines : List (List Char)} (hline : '\n' ∉ line)
    (hrest : Lines rest lines) : Lines (line ++ '\n' :: rest) (line :: lines)

/-- Every text has lines. -/
theorem exists_lines (s : List Char) : ∃ lines, Lines s lines := by
  induction s using induction_pieces '\n' with
  | last s h =>
    by_cases hs : s = []
    · exact ⟨[], hs ▸ .nil⟩
    · exact ⟨[s], .last h hs⟩
  | cons line rest h ih =>
    obtain ⟨lines, hrest⟩ := ih
    exact ⟨line :: lines, .cons h hrest⟩

/-- A text without a line end is one line, unless it is empty. -/
theorem lineChars_of_not_mem (h : '\n' ∉ line) (hne : line ≠ []) : lineChars line = [line] := by
  simp [lineChars, splitChars_of_not_mem h, hne]

theorem lineChars_append (h : '\n' ∉ line) (rest : List Char) :
    lineChars (line ++ '\n' :: rest) = dropReturn line :: lineChars rest := by
  obtain ⟨first, others, hpieces⟩ := List.exists_cons_of_ne_nil (splitChars_ne_nil '\n' rest)
  simp [lineChars, splitChars_append h, hpieces]

/-- One return is dropped at the end of a line. -/
@[simp]
theorem dropReturn_append_return (line : List Char) : dropReturn (line ++ ['\r']) = line := by
  simp [dropReturn]

/-- Dropping a return adds no characters. -/
theorem dropReturn_subset (line : List Char) : dropReturn line ⊆ line := by
  unfold dropReturn
  split
  · next rest h =>
    intro c hc
    rw [← List.mem_reverse, h]
    exact List.mem_cons_of_mem _ (List.mem_reverse.1 hc)
  · exact List.Subset.refl line

/-- No line holds a line end. -/
theorem not_mem_of_mem_lineChars (h : line ∈ lineChars s) : '\n' ∉ line := by
  induction s using induction_pieces '\n' with
  | last s hs =>
    cases s with
    | nil => exact absurd h List.not_mem_nil
    | cons c s =>
      rw [lineChars_of_not_mem hs (List.cons_ne_nil c s), List.mem_singleton] at h
      rwa [h]
  | cons piece rest hpiece ih =>
    rw [lineChars_append hpiece, List.mem_cons] at h
    rcases h with rfl | h
    · exact fun hmem => hpiece (dropReturn_subset piece hmem)
    · exact ih h

/-! ### Ends of texts -/

/-- Without the characters of a kind at its end a text ends with another character. -/
theorem dropEndWhile_eq_iff {p : Char → Bool} :
    dropEndWhile p s = text ↔
      (∃ tail, s = text ++ tail ∧ ∀ c ∈ tail, p c) ∧ ∀ c ∈ text.getLast?, ¬ p c := by
  show s.rdropWhile p = text ↔ _
  constructor
  · rintro rfl
    refine ⟨⟨s.rtakeWhile p, List.rdropWhile_append_rtakeWhile.symm, ?_⟩, ?_⟩
    · intro c hc
      exact List.mem_rtakeWhile_imp hc
    · intro c hc
      obtain ⟨hne, rfl⟩ := List.mem_getLast?_eq_getLast hc
      exact List.rdropWhile_last_not p s hne
  · rintro ⟨⟨tail, rfl, htail⟩, hlast⟩
    -- A text that does not end in such a character is left as it is.
    have htext : text.rdropWhile p = text := List.rdropWhile_eq_self_iff.2 fun hne =>
      hlast _ (List.getLast?_eq_some_getLast hne)
    rw [List.rdropWhile, List.reverse_append,
      List.dropWhile_append_of_pos fun c hc => htail c (List.mem_reverse.1 hc)]
    exact htext

/-- What ends with carriage returns ends with them without one of them. -/
theorem dropEndWhile_dropReturn (line : List Char) :
    dropEndWhile (· = '\r') (dropReturn line) = dropEndWhile (· = '\r') line := by
  unfold dropReturn
  split
  · next rest h =>
    rw [dropEndWhile, dropEndWhile, h, List.reverse_reverse]
    rfl
  · rfl

/-- Cutting a text into lines loses nothing but what ends them. -/
theorem Lines.map_lineChars {lines : List (List Char)} (h : Lines s lines) :
    (lineChars s).map (dropEndWhile (· = '\r')) = lines.map (dropEndWhile (· = '\r')) := by
  induction h with
  | nil => rfl
  | last hline hne => rw [lineChars_of_not_mem hline hne]
  | cons hline _ ih => rw [lineChars_append hline, List.map_cons, List.map_cons, ih,
      dropEndWhile_dropReturn]

/-- A text of which nothing is left without white space at its ends has nothing else. -/
theorem trimChars_eq_nil_iff : trimChars s = [] ↔ ∀ c ∈ s, isBlank c := by
  show (s.dropWhile isBlank).rdropWhile isBlank = [] ↔ _
  rw [List.rdropWhile_eq_nil_iff]
  constructor
  · intro h c hc
    rw [← List.takeWhile_append_dropWhile (p := isBlank) (l := s), List.mem_append] at hc
    exact hc.elim List.mem_takeWhile_imp (h c)
  · intro h c hc
    exact h c (List.dropWhile_subset _ hc)

end Relabel.Text
