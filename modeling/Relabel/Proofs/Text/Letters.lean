import Relabel.Text.Letters
import Relabel.Text.LowerCase

/-!
# Letters in lower case

The lower case form of a letter is one letter, with one exception: that of the capital I with a dot
above has the dot behind it, which is no letter.

## Main results

- `CharClass.contains_of_covers`: a class that covers a range contains its characters.
- `lowerCase_of_ne`: the lower case form of a letter is a letter.
-/

namespace Relabel.Text

/-- Whether one of the ranges of a class reaches over all of a range. `Nat.ble` is compared as a
number when a table is checked. -/
def CharClass.covers : CharClass → Nat → Nat → Bool
  | [], _, _ => false
  | (low, high) :: rest, first, last =>
    Nat.ble low first && (Nat.ble last high || covers rest first last)

/-- A set that covers a range contains the numbers in it. -/
theorem CharClass.contains_of_covers {set : CharClass} {first last n : Nat}
    (h : set.covers first last) (hfirst : first ≤ n) (hlast : n ≤ last) : set.contains n := by
  induction set with
  | nil => simp [covers] at h
  | cons range rest ih =>
    simp only [covers, Bool.and_eq_true, Bool.or_eq_true, Nat.ble_eq] at h
    simp only [contains, Bool.and_eq_true, Bool.or_eq_true, decide_eq_true_eq]
    refine ⟨Nat.le_trans h.1 hfirst, ?_⟩
    rcases h.2 with hhigh | hrest
    · exact .inl (Nat.le_trans hlast hhigh)
    · exact .inr (ih hrest)

/-- The lower case forms on a run are letters and code points of characters. -/
def CaseRun.givesLetters (run : CaseRun) : Bool :=
  alphabetic.covers run.image (run.image + (run.last - run.first)) &&
    (run.image + (run.last - run.first) < 0xd800 ||
      (0xe000 ≤ run.image && run.image + (run.last - run.first) < 0x110000))

/-- Every run of the table gives letters. -/
theorem givesLetters_of_mem {run : CaseRun} (h : run ∈ lowerRuns) : run.givesLetters := by
  have hall : lowerRuns.all CaseRun.givesLetters := by decide +kernel
  exact List.all_eq_true.1 hall run h

theorem CaseRun.isAlphabetic_of_image? {run : CaseRun} {n m : Nat} (hrun : run.givesLetters)
    (h : run.image? n = some m) : isAlphabetic (Char.ofNat m) := by
  unfold image? at h
  split at h
  · next hmem =>
    obtain ⟨hfirst, hlast, -⟩ := hmem
    obtain rfl := Option.some.inj h
    simp only [givesLetters, Bool.and_eq_true, Bool.or_eq_true, decide_eq_true_eq] at hrun
    obtain ⟨hcovers, hvalid⟩ := hrun
    have hchar : (run.image + (n - run.first)).isValidChar := by
      unfold Nat.isValidChar
      omega
    have htoNat : (Char.ofNat (run.image + (n - run.first))).toNat =
        run.image + (n - run.first) := by
      rw [Char.ofNat, dif_pos hchar]
      rfl
    rw [isAlphabetic, htoNat]
    exact alphabetic.contains_of_covers hcovers (by omega) (by omega)
  · cases h

/-- The lower case form of a letter is a letter, unless it is the capital I with a dot above. -/
theorem lowerCase_of_ne {c : Char} (hc : isAlphabetic c) (hne : c.toNat ≠ 0x130) :
    ∃ d, lowerCase c = [d] ∧ isAlphabetic d := by
  rw [lowerCase, if_neg hne]
  cases himage : lowerRuns.findSome? (·.image? c.toNat) with
  | none => exact ⟨c, rfl, hc⟩
  | some m =>
    obtain ⟨run, hrun, hm⟩ := List.exists_of_findSome?_eq_some himage
    exact ⟨Char.ofNat m, rfl, CaseRun.isAlphabetic_of_image? (givesLetters_of_mem hrun) hm⟩

/-- Lower case is at least one character. -/
theorem lowerCase_ne_nil (c : Char) : lowerCase c ≠ [] := by
  unfold lowerCase
  split
  · exact List.cons_ne_nil _ _
  · split <;> exact List.cons_ne_nil _ _

/-- The dot that is left over of the capital I with a dot above is no letter or digit. -/
theorem isAlphanumeric_dot : isAlphanumeric (Char.ofNat 0x307) = false := by
  decide +kernel

/-- A digit is alphanumeric. -/
theorem isAlphanumeric_of_isDigit {c : Char} (h : c.isDigit) : isAlphanumeric c := by
  have hcovers : numeric.covers 0x30 0x39 := by decide
  obtain ⟨hfirst, hlast⟩ := Char.isDigit_iff_toNat.1 h
  rw [isAlphanumeric, numeric.contains_of_covers hcovers hfirst hlast, Bool.or_true]

end Relabel.Text
