/-!
# Character classes

A class of characters is a list of ranges of code points, in ascending order. `union`,
`complement` and the operations made of them keep that order and leave no two ranges that could
be one.
-/

namespace Relabel.Text

/-- Ranges of code points, both ends included, in ascending order. -/
abbrev CharClass := List (Nat × Nat)

namespace CharClass

/-- Whether a code point lies in one of the ranges. The search stops at the first range that
starts beyond it. -/
def contains : CharClass → Nat → Bool
  | [], _ => false
  | (low, high) :: rest, n => low ≤ n && (n ≤ high || contains rest n)

/-- The last code point. -/
def lastCodePoint : Nat := 0x10ffff

/-- All characters. -/
def full : CharClass :=
  [(0, lastCodePoint)]

/-- The class of one code point. -/
def single (n : Nat) : CharClass :=
  [(n, n)]

/-- The ranges of a list after one that is still open at its end: a range that overlaps or touches
the open one extends it. -/
def joinFrom (low high : Nat) : CharClass → CharClass
  | [] => [(low, high)]
  | (a, b) :: rest =>
    if a ≤ high + 1 then joinFrom low (max high b) rest else (low, high) :: joinFrom a b rest

/-- Ranges in ascending order of their starts as a class. -/
def ofSorted : CharClass → CharClass
  | [] => []
  | (low, high) :: rest => joinFrom low high rest

/-- Ranges in any order as a class. -/
def ofRanges (ranges : List (Nat × Nat)) : CharClass :=
  ofSorted (ranges.mergeSort fun a b => a.1 ≤ b.1)

/-- The characters of either class. -/
def union (s t : CharClass) : CharClass :=
  ofSorted (List.merge s t fun a b => a.1 ≤ b.1)

/-- The characters of any of the classes. -/
def unions (classes : List CharClass) : CharClass :=
  classes.foldr union []

/-- What the ranges leave out from `next` on. -/
def gapsFrom (next : Nat) : CharClass → CharClass
  | [] => if next ≤ lastCodePoint then [(next, lastCodePoint)] else []
  | (low, high) :: rest =>
    if next < low then (next, low - 1) :: gapsFrom (high + 1) rest else gapsFrom (high + 1) rest

/-- The characters outside a class. -/
def complement (s : CharClass) : CharClass :=
  gapsFrom 0 s

/-- The characters of both classes. -/
def inter (s t : CharClass) : CharClass :=
  complement (union (complement s) (complement t))

/-- The characters of the first class alone. -/
def diff (s t : CharClass) : CharClass :=
  complement (union (complement s) t)

/-- The characters of exactly one of the classes. -/
def symmDiff (s t : CharClass) : CharClass :=
  diff (union s t) (inter s t)

/-- The ranges follow each other from `next` on, and none touches the one before it. -/
def Ordered (next : Nat) : CharClass → Prop
  | [] => True
  | (low, high) :: rest => next ≤ low ∧ low ≤ high ∧ Ordered (high + 2) rest

theorem Ordered.mono {m n : Nat} (h : m ≤ n) : ∀ {s : CharClass}, Ordered n s → Ordered m s
  | [], _ => trivial
  | (_, _) :: _, ⟨h₁, h₂, h₃⟩ => ⟨Nat.le_trans h h₁, h₂, h₃⟩

/-- A class holds nothing below its first range. -/
theorem Ordered.contains_eq_false {next n : Nat} (hn : n < next) :
    ∀ {s : CharClass}, Ordered next s → contains s n = false
  | [], _ => rfl
  | (low, high) :: rest, ⟨h, _, _⟩ => by
    have : ¬ low ≤ n := by omega
    simp [contains, this]

/-- The gaps of a class hold what lies from `next` on and not in the class. -/
theorem contains_gapsFrom {next n : Nat} (hn : n ≤ lastCodePoint) :
    ∀ {s : CharClass}, Ordered next s →
      contains (gapsFrom next s) n = (decide (next ≤ n) && !contains s n)
  | [], _ => by
    by_cases h : next ≤ n
    · have : next ≤ lastCodePoint := by omega
      simp [gapsFrom, contains, this, hn]
    · by_cases h' : next ≤ lastCodePoint <;> simp [gapsFrom, contains, h, h']
  | (low, high) :: rest, ⟨h₁, h₂, h₃⟩ => by
    have ih := contains_gapsFrom hn (h₃.mono (by omega : high + 1 ≤ high + 2))
    by_cases h : next < low
    · simp only [gapsFrom, h, if_true, contains, ih]
      cases contains rest n <;> by_cases a : next ≤ n <;> by_cases b : low ≤ n <;>
        by_cases c : n ≤ high <;> simp [a, b, c] <;> omega
    · simp only [gapsFrom, h, if_false, contains, ih]
      cases contains rest n <;> by_cases a : next ≤ n <;> by_cases b : low ≤ n <;>
        by_cases c : n ≤ high <;> simp [a, b, c] <;> omega

/-- The complement of a class holds the characters that the class does not hold. -/
theorem contains_complement {s : CharClass} (h : Ordered 0 s) {n : Nat} (hn : n ≤ lastCodePoint) :
    contains (complement s) n = !contains s n := by
  simp [complement, contains_gapsFrom hn h]

end CharClass

end Relabel.Text
