import Std.Data.HashMap
import Relabel.Pattern
import Relabel.Text.Utf8Ranges

/-!
# Sizes of automata

A search runs an automaton that reads the UTF-8 form of a text byte by byte, from front to back or
from back to front. Here is how much memory the two automata of a pattern take. A state takes
`stateSize` bytes; a choice between states and one between ranges of bytes take more for each of
their branches. A repetition has a copy of its pattern for each of the times it counts, so that a
short pattern can have a large automaton.
-/

namespace Relabel.Pattern

open Text (CharClass)

/-- The bytes of a state. -/
def stateSize : Nat := 32

/-- The bytes of a branch to another state. -/
def branchSize : Nat := 4

/-- The bytes of a branch with a range of bytes. -/
def rangeSize : Nat := 8

/-! ### Classes -/

/-- Sequences by what they start with, and what follows that in each. -/
def byFirst (seqs : List (List (Nat × Nat))) : List ((Nat × Nat) × List (List (Nat × Nat))) :=
  seqs.foldr (fun seq groups =>
    match seq, groups with
    | [], _ => groups
    | first :: rest, (first', rests) :: others =>
      if first = first' then (first, rest :: rests) :: others
      else (first, [rest]) :: (first', rests) :: others
    | first :: rest, [] => [(first, [rest])]) []

/-- A state that reads one byte: ranges of bytes, and the state each leads to. -/
abbrev ByteState := List ((Nat × Nat) × Nat)

/-- The states that read the rest of a character, numbered from one; the state after the character
has the number zero. -/
abbrev ByteStates := Std.HashMap ByteState Nat

/-- The state that reads one of some sequences, together with the states after it. Equal states are
one. A sequence has at most as many ranges as the first argument says. -/
def addState : Nat → List (List (Nat × Nat)) → ByteStates → Nat × ByteStates
  | 0, _, states => (0, states)
  | n + 1, seqs, states =>
    if seqs.all List.isEmpty then (0, states)
    else
      let (state, states) := (byFirst seqs).foldl (fun (state, states) (range, rests) =>
        let (next, states) := addState n rests states
        (state ++ [(range, next)], states)) (([] : ByteState), states)
      match states[state]? with
      | some number => (number, states)
      | none => (states.size + 1, states.insert state (states.size + 1))

/-- The bytes for a class of characters read from front to back. -/
def forwardClassSize (s : CharClass) : Nat :=
  let states := (addState 5 s.byteRanges {}).2
  states.fold (fun n state _ => n + stateSize + rangeSize * state.length) stateSize

/-- The number of ways in which sequences can start. -/
def countFronts : Nat → List (List (Nat × Nat)) → Nat
  | 0, _ => 0
  | n + 1, seqs => (byFirst seqs).foldl (fun count (_, rests) => count + 1 + countFronts n rests) 0

/-- The bytes for a class of characters read from back to front: sequences share the states of what
they start with. -/
def backwardClassSize (s : CharClass) : Nat :=
  let seqs := s.byteRanges
  stateSize * (2 + countFronts 5 seqs) + branchSize * seqs.length

/-- The bytes for a class of characters: one state for each byte of a single character, one with its
ranges for a class inside ASCII, and `general` for any other. -/
def classSize (general : CharClass → Nat) (s : CharClass) : Nat :=
  match s with
  | [] => 2 * stateSize
  | [(low, high)] =>
    if low = high then stateSize * (Text.utf8Form low).length
    else if high < 0x80 then 2 * stateSize + rangeSize
    else general s
  | _ => if s.all (·.2 < 0x80) then 2 * stateSize + rangeSize * s.length else general s

/-! ### Patterns -/

/-- Whether the pattern can be found without a character. -/
def canBeEmpty : Pattern → Bool
  | .empty | .anchor _ => true
  | .one _ => false
  | .seq p q => canBeEmpty p && canBeEmpty q
  | .alt p q => canBeEmpty p || canBeEmpty q
  | .repeated p min _ => min = 0 || canBeEmpty p
  | .group p => canBeEmpty p

/-- The bytes for a choice between going on and one more time. -/
def choiceSize : Nat := stateSize + 2 * branchSize

/-- The bytes for a pattern repeated, where it takes `n` bytes itself. -/
def repeatedSize (p : Pattern) (n : Nat) (min : Nat) : Option Nat → Nat
  | none =>
    if min = 0 then
      if canBeEmpty p then n + 2 * choiceSize + stateSize else n + choiceSize
    else min * n + choiceSize
  | some max =>
    if min = max then min * n
    else
      let least := if min = 0 ∧ max ≠ 1 then stateSize else min * n
      least + stateSize + (max - min) * (n + choiceSize)

/-- The bytes for a pattern as one of several alternatives, where it takes `n` bytes itself. Of
alternatives inside alternatives the choice is made at once. -/
def alternativeSize (p : Pattern) (n : Nat) : Nat :=
  match p with
  | .alt _ _ => n - 2 * stateSize
  | _ => n + branchSize

/-- The bytes for a pattern, given those for a class and for the ends of a group. -/
def size (classSize : CharClass → Nat) (groupSize : Nat) : Pattern → Nat
  | .empty | .anchor _ => stateSize
  | .one s => classSize s
  | .seq p q => size classSize groupSize p + size classSize groupSize q
  | .alt p q =>
    2 * stateSize + alternativeSize p (size classSize groupSize p) +
      alternativeSize q (size classSize groupSize q)
  | .repeated p min max => repeatedSize p (size classSize groupSize p) min max
  | .group p => size classSize groupSize p + groupSize

/-- The bytes for finding where to start, in front of the automaton. -/
def searchSize : Nat := choiceSize + 2 * stateSize + rangeSize

/-- The bytes of the automaton that reads from front to back and notes the ends of groups. -/
def forwardSize (p : Pattern) : Nat :=
  searchSize + p.size (classSize forwardClassSize) (2 * stateSize) + 3 * stateSize

/-- The bytes of the automaton that reads from back to front. -/
def backwardSize (p : Pattern) : Nat :=
  searchSize + p.size (classSize backwardClassSize) 0 + stateSize

/-- The most bytes that an automaton may take. -/
def sizeLimit : Nat := 10 * 1024 * 1024

/-- Whether the automata of a pattern are small enough. -/
def isWithinLimit (p : Pattern) : Bool :=
  p.forwardSize ≤ sizeLimit && p.backwardSize ≤ sizeLimit

end Relabel.Pattern
