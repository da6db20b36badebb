import Relabel.Proofs.LocalNames.Runs
import Relabel.Proofs.Text.Letters

/-!
# Replacements that can be used

A name that is made is an identifier: it starts with a letter, and digits and underscores may
follow. Letters in lower case are letters, with the one exception of the capital I with a dot above,
of which a dot is left over. No name that is made is reserved. A name that is taken over can be used
where it was, so it can be used again; only `this` is kept although it is reserved.

## Main results

- `isIdentifier_stem_iff`: when the stem of a type is an identifier.
- `usable_iff_of_rename`: when a replacement is an identifier and not reserved.
-/

namespace Relabel.LocalPolicy

variable {naming : LocalPolicy} {locals : List LocalEntry} {e : LocalEntry} {s : UInt16}
  {name suffix n : String}

/-! ### Identifiers -/

/-- A character that may stand behind the first of an identifier. -/
def isPart (c : Char) : Bool :=
  Text.isAlphanumeric c || c = '_' || c = '$'

/-- A name is an identifier by its first character and the others. -/
theorem isIdentifier_iff : isIdentifier name = true ↔ ∃ first rest, name.toList = first :: rest ∧
    (Text.isAlphabetic first = true ∨ first = '_' ∨ first = '$') ∧ ∀ c ∈ rest, isPart c := by
  unfold isIdentifier
  cases name.toList with
  | nil => simp
  | cons first rest => simp [isPart, or_assoc]

/-- What may stand behind an identifier makes no difference. -/
theorem isIdentifier_append_iff (hname : name ≠ "") (hsuffix : ∀ c ∈ suffix.toList, isPart c) :
    isIdentifier (name ++ suffix) = true ↔ isIdentifier name = true := by
  obtain ⟨first, rest, hchars⟩ := List.exists_cons_of_ne_nil (mt String.toList_eq_nil_iff.1 hname)
  rw [isIdentifier_iff, isIdentifier_iff, String.toList_append, hchars]
  constructor
  · rintro ⟨_, _, ⟨⟩, hfirst, hrest⟩
    exact ⟨first, rest, rfl, hfirst, fun c hc => hrest c (List.mem_append_left _ hc)⟩
  · rintro ⟨_, _, ⟨⟩, hfirst, hrest⟩
    refine ⟨first, rest ++ suffix.toList, rfl, hfirst, fun c hc => ?_⟩
    rcases List.mem_append.1 hc with hc | hc
    · exact hrest c hc
    · exact hsuffix c hc

/-- The digits of a number may stand in an identifier. -/
theorem isPart_of_mem_toString {k : Nat} {c : Char} (h : c ∈ (toString k).toList) : isPart c := by
  rw [Nat.toString_eq_ofList_toDigits, String.toList_ofList] at h
  have hdigit := Nat.isDigit_of_mem_toDigits (by decide) (by decide) h
  simp [isPart, Text.isAlphanumeric_of_isDigit hdigit]

/-! ### Stems -/

/-- The simple name of a class without odd characters. -/
def simpleName (desc : List Char) : List Char :=
  (lastPiece (Text.afterLast '/' (Text.dropEndWhile (· = ';') (desc.dropWhile (· = 'L'))))).filter
    fun c => Text.isAlphanumeric c || c = '_'

/-- The type is a class, or an array of one, and the simple name of the class starts with the
capital I with a dot above. -/
def StartsDotted (desc : String) : Prop :=
  ∃ rest name, desc.toList.dropWhile (· = '[') = 'L' :: rest ∧
    simpleName ('L' :: rest) = '\u0130' :: name

/-- The stem of a class, by the first character of its simple name. -/
theorem classStem_eq (desc : List Char) : classStem desc = match simpleName desc with
    | first :: rest =>
      if Text.isAlphabetic first then String.ofList (Text.lowerCase first ++ rest) else "obj"
    | [] => "obj" := rfl

/-- The stem for a class is an identifier, unless a dot is left over in it. -/
theorem isIdentifier_classStem_iff (desc : List Char) :
    isIdentifier (classStem desc) = true ↔ ∀ name, simpleName desc ≠ '\u0130' :: name := by
  have hobj : isIdentifier "obj" = true := by decide +kernel
  rw [classStem_eq]
  cases hsimple : simpleName desc with
  | nil => simp [hobj]
  | cons first rest =>
    have hrest : ∀ c ∈ rest, isPart c := by
      intro c hc
      have hmem : c ∈ simpleName desc := hsimple ▸ List.mem_cons_of_mem _ hc
      have hpart := (List.mem_filter.1 hmem).2
      simp only [Bool.or_eq_true, decide_eq_true_eq] at hpart
      simp [isPart, hpart]
    dsimp only
    by_cases hfirst : Text.isAlphabetic first = true
    · rw [if_pos hfirst, isIdentifier_iff, String.toList_ofList]
      -- Only the dotted capital becomes two characters, and the second of them is no letter.
      by_cases hdotted : first = '\u0130'
      · subst hdotted
        constructor
        · rintro ⟨_, _, ⟨⟩, -, hparts⟩
          have hdot := hparts (Char.ofNat 0x307) List.mem_cons_self
          simp [isPart, Text.isAlphanumeric_dot] at hdot
        · exact fun hne => absurd rfl (hne rest)
      · have hne : first.toNat ≠ 0x130 := fun h => hdotted (Char.toNat_inj.1 h)
        obtain ⟨small, hsmall, hletter⟩ := Text.lowerCase_of_ne hfirst hne
        rw [hsmall]
        exact ⟨fun _ _ heq => hdotted (List.cons.inj heq).1,
          fun _ => ⟨small, rest, rfl, .inl hletter, hrest⟩⟩
    · rw [if_neg hfirst]
      refine ⟨fun _ name heq => hfirst ?_, fun _ => hobj⟩
      rw [(List.cons.inj heq).1]
      decide +kernel

/-- The stem of a class is never empty. -/
theorem classStem_ne_empty (desc : List Char) : classStem desc ≠ "" := by
  rw [classStem_eq]
  split
  · next first rest _ =>
    split
    · exact fun h => Text.lowerCase_ne_nil first (List.append_eq_nil_iff.1
        (String.ofList_eq_empty_iff.1 h)).1
    · decide
  · decide

/-- The stem of a type is never empty. -/
theorem stemChars_ne_empty (desc : List Char) : stemChars desc ≠ "" := by
  fun_induction stemChars desc with
  | case1 element ih => simp
  | case2 desc =>
    unfold elementStem
    split
    case h_9 => exact classStem_ne_empty _
    all_goals decide

/-- The stem for a type is an identifier, unless a dot is left over in it. -/
theorem isIdentifier_stem_iff (desc : String) :
    isIdentifier (stem desc) = true ↔ ¬StartsDotted desc := by
  unfold stem StartsDotted
  generalize desc.toList = chars
  fun_induction stemChars chars with
  | case1 element ih =>
    have harr : ∀ c ∈ "Arr".toList, isPart c := List.all_eq_true.1 (by decide +kernel)
    rw [isIdentifier_append_iff (stemChars_ne_empty element) harr, ih]
    simp
  | case2 chars hchars =>
    have hdrop : chars.dropWhile (· = '[') = chars := by
      cases chars with
      | nil => rfl
      | cons c rest => exact List.dropWhile_cons_of_neg (by simpa using hchars rest)
    rw [hdrop]
    unfold elementStem
    split
    case h_9 rest =>
      rw [isIdentifier_classStem_iff]
      simp
    case h_10 hclass =>
      have hvar : isIdentifier "var" = true := by decide +kernel
      refine iff_of_true hvar ?_
      rintro ⟨rest, -, hrest, -⟩
      exact hclass rest hrest
    -- A letter for a primitive type is no class.
    all_goals exact iff_of_true (by decide +kernel) (by simp)

/-! ### Replacements -/

/-- A name that is made is an identifier if the stem is one. -/
theorem isIdentifier_iff_of_endsAt {names : Names}
    (h : EndsAt (names.nextName? s) (firstTry e) n) :
    isIdentifier n = true ↔ ¬StartsDotted e.desc := by
  obtain ⟨k, rfl⟩ := Names.exists_underscored h
  -- Neither the number of the slot nor the underscores can make or break an identifier.
  have hstem : stem e.desc ≠ "" := stemChars_ne_empty e.desc.toList
  have hunderscores : ∀ c ∈ (String.ofList (List.replicate k '_')).toList, isPart c := by
    intro c hc
    rw [String.toList_ofList] at hc
    rw [(List.mem_replicate.1 hc).2]
    decide
  have hfirst : firstTry e ≠ "" := fun hempty => hstem (String.append_eq_empty_iff.1 hempty).1
  rw [underscored, isIdentifier_append_iff hfirst hunderscores, firstTry,
    isIdentifier_append_iff hstem fun c => isPart_of_mem_toString, isIdentifier_stem_iff]

/-- A name that is kept can be used, unless it is `this`. -/
theorem usable_iff_of_isUnusable (h : naming.isUnusable n = false) :
    (isIdentifier n = true ∧ n ∉ reservedWords) ↔ n ≠ "this" := by
  constructor
  · rintro ⟨-, hword⟩ rfl
    exact hword (by decide +kernel)
  · intro hthis
    simp only [isUnusable, Bool.and_eq_false_iff, bne_eq_false_iff_eq, Bool.or_eq_false_iff,
      Bool.not_eq_false', List.contains_eq_mem, decide_eq_false_iff_not] at h
    rcases h with heq | ⟨⟨hidentifier, hword⟩, -⟩
    · exact absurd heq hthis
    · exact ⟨hidentifier, hword⟩

/-- A replacement is an identifier and not reserved, unless it is `this`, taken over from an entry
that keeps it, or it is made for a class whose simple name starts with the capital I with a dot
above. -/
theorem usable_iff_of_rename {i : Nat} (hi : locals[i]? = some e)
    (hn : (naming.rename locals)[i]? = some (some n)) :
    ∃ entry, settles? naming locals e.index = some entry ∧
      ((isIdentifier n = true ∧ n ∉ reservedWords) ↔
        ¬(inferred? naming locals e.index = some "this" ∨
          inferred? naming locals e.index = none ∧ StartsDotted entry.desc)) := by
  obtain ⟨final, hrun⟩ := exists_run_rename naming locals
  obtain ⟨entry, hsettles, horigin⟩ := hrun.origin_of_keptNames (hrun.given hi hn)
  refine ⟨entry, hsettles, ?_⟩
  rw [← (settles?_eq_some hsettles).2]
  cases horigin with
  | borrowed hinferred =>
    obtain ⟨f, -, husable, rfl, -⟩ := KeptIn.of_inferred? hinferred
    rw [usable_iff_of_isUnusable husable, hinferred]
    simp
  | made hinferred _ hends =>
    have hword := (Names.nextName?_eq_none.1 hends.next_eq_none).1
    rw [isIdentifier_iff_of_endsAt hends, hinferred]
    simp [hword]

/-- A variable of a class whose name starts with the capital I with a dot above. -/
def dotted : List LocalEntry :=
  [⟨"", "L\u0130;", 1⟩]

/-- The name that is given has the combining dot in it. -/
theorem rename_dotted : rename {} dotted = [some "i\u03071"] := by
  have htaken : (keptNames {} dotted).taken["i\u03071"]? = none := by
    rw [getElem?_taken_keptNames]
    decide +kernel
  have hfree : (keptNames {} dotted).nextName? 1 "i\u03071" = none := by
    refine Names.nextName?_eq_none.2 ⟨by decide +kernel, fun slot hslot => ?_⟩
    cases htaken.symm.trans hslot
  have hfirst : firstTry ⟨"", "L\u0130;", 1⟩ = "i\u03071" := by decide +kernel
  have hmade : Step {} dotted (keptNames {} dotted) ⟨"", "L\u0130;", 1⟩ (some "i\u03071")
      ((keptNames {} dotted).give 1 "i\u03071") :=
    .make (by decide +kernel) Std.HashMap.getElem?_empty rfl (by rw [hfirst]; exact .stop hfree)
  exact (Run.eq_rename (.next hmade .done)).symm

/-- The replacement has the dot in it. -/
theorem usable_iff_of_rename_dotted :
    dotted[0]? = some ⟨"", "L\u0130;", 1⟩ ∧ (rename {} dotted)[0]? = some (some "i\u03071") ∧
      ¬(isIdentifier "i\u03071" = true ∧ "i\u03071" ∉ reservedWords) := by
  have hn : (rename {} dotted)[0]? = some (some "i\u03071") := by rw [rename_dotted]; rfl
  refine ⟨rfl, hn, fun husable => ?_⟩
  obtain ⟨entry, hsettles, hiff⟩ := usable_iff_of_rename (e := ⟨"", "L\u0130;", 1⟩) rfl hn
  obtain rfl : ⟨"", "L\u0130;", 1⟩ = entry :=
    Option.some.inj ((settles?_cons_self (by decide +kernel)).symm.trans hsettles)
  exact hiff.1 husable (.inr ⟨rfl, ['\u0130', ';'], [], by decide +kernel, by decide +kernel⟩)

end Relabel.LocalPolicy
