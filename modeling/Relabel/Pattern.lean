import Relabel.Text.CharClass

/-!
# Regular expressions

The syntax of regular expressions and their search in a text. A set of positions in a text of `n`
characters is the set of bits of a number below `2 ^ (n + 1)`. A pattern carries the positions where
it may start to those where it may end; it is found in a text when it carries the set of all
positions to a set that is not empty.
-/

namespace Relabel

/-- A condition on a position in terms of the words around it. -/
inductive WordEdge where
  | boundary
  | noBoundary
  | wordStart
  | wordEnd
  | noWordBefore
  | noWordAfter

/-- A condition on a position. -/
inductive Anchor where
  | textStart
  | textEnd
  | lineStart
  | lineEnd
  /-- A line starts after a line feed, and after a carriage return that stands without one. -/
  | returnLineStart
  /-- A line ends before a carriage return, and before a line feed that stands without one. -/
  | returnLineEnd
  | word (edge : WordEdge) (characters : Text.CharClass)

/-- A regular expression. -/
inductive Pattern where
  | empty
  /-- One character of a class. -/
  | one (set : Text.CharClass)
  | anchor (a : Anchor)
  | seq (p q : Pattern)
  | alt (p q : Pattern)
  /-- At least `min` times, and at most `max` times where that is given. -/
  | repeated (p : Pattern) (min : Nat) (max : Option Nat)
  /-- In parentheses that keep what is found. -/
  | group (p : Pattern)

/-- Whether the condition holds between two characters, one before the position and one after. -/
def WordEdge.holds (isWord : Char → Bool) (before after : Option Char) : WordEdge → Bool
  | .boundary => before.any isWord != after.any isWord
  | .noBoundary => before.any isWord == after.any isWord
  | .wordStart => !before.any isWord && after.any isWord
  | .wordEnd => before.any isWord && !after.any isWord
  | .noWordBefore => !before.any isWord
  | .noWordAfter => !after.any isWord

/-- Whether the condition holds between two characters, one before the position and one after. -/
def Anchor.holds (before after : Option Char) : Anchor → Bool
  | .textStart => before.isNone
  | .textEnd => after.isNone
  | .lineStart => before.all (· = '\n')
  | .lineEnd => after.all (· = '\n')
  | .returnLineStart => before.all fun c => c = '\n' || (c = '\r' && after != some '\n')
  | .returnLineEnd => after.all fun c => c = '\r' || (c = '\n' && before != some '\r')
  | .word edge characters => edge.holds (fun c => characters.contains c.toNat) before after

namespace Pattern

/-- The set of the positions before which a character fulfils a condition. -/
def positionsWhere (p : Char → Bool) (text : List Char) : Nat :=
  text.foldr (fun c rest => 2 * rest + (if p c then 1 else 0)) 0

/-- The set of the positions that fulfil a condition on the characters before and after them. -/
def positionsBetween (p : Option Char → Option Char → Bool) (text : List Char) : Nat :=
  let before := Option.none :: text.map some
  let after := text.map some ++ [Option.none]
  (before.zip after).foldr (fun (b, a) rest => 2 * rest + (if p b a then 1 else 0)) 0

/-- A step applied `n` times, or until it changes nothing. -/
def iterate (step : Nat → Nat) : Nat → Nat → Nat
  | 0, set => set
  | n + 1, set =>
    let next := step set
    if next = set then set else iterate step n next

/-- The positions where a pattern may end when it starts at one of `starts`. Of more repetitions
than there are positions some match nothing and can be left out. -/
def ends (text : List Char) : Pattern → Nat → Nat
  | .empty, starts => starts
  | .one set, starts => 2 * (starts &&& positionsWhere (fun c => set.contains c.toNat) text)
  | .anchor a, starts => starts &&& positionsBetween (fun b c => a.holds b c) text
  | .seq p q, starts => ends text q (ends text p starts)
  | .alt p q, starts => ends text p starts ||| ends text q starts
  | .repeated p min max, starts =>
    let bound := text.length + 1
    let once := iterate (fun set => ends text p set) (bound.min min) starts
    let more := max.elim bound fun max => bound.min (max - min)
    iterate (fun set => set ||| ends text p set) more once
  | .group p, starts => ends text p starts

/-- Whether the pattern is found somewhere in a text. -/
def isFoundIn (p : Pattern) (text : String) : Bool :=
  let chars := text.toList
  p.ends chars (1 <<< (chars.length + 1) - 1) != 0

/-- A step that changes nothing any more may be left out. -/
theorem iterate_of_fixed {step : Nat → Nat} {set : Nat} (h : step set = set) (n : Nat) :
    iterate step n set = set := by
  cases n <;> simp [iterate, h]

/-- Stopping early makes no difference. -/
theorem iterate_succ (step : Nat → Nat) (n set : Nat) :
    iterate step (n + 1) set = iterate step n (step set) := by
  by_cases h : step set = set
  · rw [iterate_of_fixed h, h, iterate_of_fixed h]
  · simp [iterate, h]

end Pattern

end Relabel
