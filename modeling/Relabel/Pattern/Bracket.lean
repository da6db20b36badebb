import Relabel.Pattern.Escape

/-!
# Classes in brackets

A class in brackets lists characters, ranges, escapes, ASCII classes such as `[:alpha:]`, and
classes in brackets of their own. Between such lists stand `&&`, `--` and `~~`, which take what is
in both, in the first alone, or in exactly one; they group to the left.
-/

namespace Relabel.Pattern

open Text (CharClass)

/-- An operation on two classes. -/
inductive SetOperation where
  | inter
  | diff
  | symmDiff

/-- The result of an operation. -/
def SetOperation.apply (op : SetOperation) (s t : CharClass) : CharClass :=
  match op with
  | .inter => s.inter t
  | .diff => s.diff t
  | .symmDiff => s.symmDiff t

/-- A class, and how deep it nests. -/
structure Nested where
  set : CharClass
  depth : Nat

/-- What has been read of a class in brackets. -/
structure Bracket where
  /-- The operation that waits for its right side, with its left side. -/
  left : Option (SetOperation × Nested) := none
  /-- The number of items since then, all their characters, and the depth of the deepest. -/
  count : Nat := 0
  set : CharClass := []
  depth : Nat := 0

namespace Bracket

/-- With one more item. -/
def push (b : Bracket) (s : CharClass) (depth : Nat) : Bracket :=
  { b with count := b.count + 1, set := b.set.union s, depth := max b.depth depth }

/-- The class read so far. Both sides of an operation ignore case by themselves. -/
def result (flags : Flags) (b : Bracket) : Nested :=
  let right : Nested := ⟨b.set, if b.count ≤ 1 then b.depth else b.depth + 1⟩
  match b.left with
  | none => right
  | some (op, left) =>
    let fold (s : CharClass) := (flags.classOf? false s).getD s
    ⟨op.apply (fold left.set) (fold right.set), max left.depth right.depth + 1⟩

/-- With an operation after what has been read so far. -/
def operate (flags : Flags) (op : SetOperation) (b : Bracket) : Bracket :=
  { left := some (op, b.result flags) }

end Bracket

/-- Whether a character may stand in a class. -/
def Flags.admits (flags : Flags) (c : Char) : Bool :=
  flags.unicode || c.toNat < 0x80

/-- Reads one member of a class: a character, or the class that an escape stands for. -/
def classAtom? (flags : Flags) (s : List Char) : Option (Sum Char CharClass × List Char) := do
  match s with
  | [] => none
  | '\\' :: rest =>
    match ← escape? flags rest with
    | (.char c, rest) => if flags.admits c then return (.inl c, rest) else none
    | (.set s, rest) => return (.inr s, rest)
    | (.anchor _, _) => none
  | c :: rest => if flags.admits c then return (.inl c, rest) else none

/-- The next character after blanks and the sign that starts a comment. -/
def pastHash (hash : Bool) : List Char → Option Char
  | [] => none
  | c :: rest =>
    if Text.isBlank c then pastHash hash rest
    else if c = '#' ∧ !hash then pastHash true rest
    else some c

/-- The character that decides whether a hyphen in front of it makes a range. -/
def Flags.peek (flags : Flags) (s : List Char) : Option Char :=
  if flags.extended then pastHash false s <|> s.head? else s.head?

/-- Reads a character, a range, or the class of an escape. A hyphen makes a range unless a closing
bracket or another hyphen follows it. -/
def classRange? (flags : Flags) (s : List Char) : Option (CharClass × List Char) := do
  let (first, rest) ← classAtom? flags s
  let alone := match first with
    | .inl c => CharClass.single c.toNat
    | .inr s => s
  match flags.skip rest with
  | [] => none
  | '-' :: after =>
    if flags.peek after = some ']' ∨ flags.peek after = some '-' then
      return (alone, '-' :: after)
    else
      match first, ← classAtom? flags (flags.skip after) with
      | .inl low, (.inl high, rest) =>
        if low.toNat ≤ high.toNat then return ([(low.toNat, high.toNat)], rest) else none
      | _, _ => none
  | rest => return (alone, rest)

/-- Reads an ASCII class such as `:alpha:]` after its opening bracket, and whether it is negated. -/
def asciiClassItem? (s : List Char) : Option (Bool × CharClass × List Char) := do
  match s with
  | ':' :: rest =>
    let (negated, rest) := match rest with
      | '^' :: rest => (true, rest)
      | _ => (false, rest)
    match rest.span (· ≠ ':') with
    | (name, ':' :: ']' :: rest) => return (negated, ← asciiClass? name, rest)
    | _ => none
  | _ => none

/-- Reads the start of a class after its opening bracket: whether it is negated, and what cannot
mean anything else there, which is any number of hyphens, else one closing bracket. -/
def bracketStart? (flags : Flags) (s : List Char) : Option (Bool × Bracket × List Char) :=
  let s := flags.skip s
  let (negated, s) := match s with
    | '^' :: rest => (true, flags.skip rest)
    | _ => (false, s)
  match flags.span (· = '-') false s with
  | (_, []) => none
  | ([], ']' :: rest) =>
    some (negated, ({} : Bracket).push (.single 0x5d) 0, flags.skip rest)
  | (hyphens, rest) =>
    some (negated, hyphens.foldl (fun b _ => b.push (.single 0x2d) 0) {}, rest)

/-- Reads a class up to its closing bracket and past it. -/
def bracketItems? (flags : Flags) : Nat → Bracket → List Char → Option (Nested × List Char)
  | 0, _, _ => none
  | fuel + 1, b, s => do
    match flags.skip s with
    | [] => none
    | ']' :: rest => return (b.result flags, rest)
    | '&' :: '&' :: rest => bracketItems? flags fuel (b.operate flags .inter) rest
    | '-' :: '-' :: rest => bracketItems? flags fuel (b.operate flags .diff) rest
    | '~' :: '~' :: rest => bracketItems? flags fuel (b.operate flags .symmDiff) rest
    | '[' :: rest =>
      match asciiClassItem? rest with
      | some (negated, s, rest) =>
        bracketItems? flags fuel (b.push (← flags.classOf? negated s) 0) rest
      | none =>
        let (negated, inner, rest) ← bracketStart? flags rest
        let (inner, rest) ← bracketItems? flags fuel inner rest
        let s ← flags.classOf? negated inner.set
        bracketItems? flags fuel (b.push s (inner.depth + 1)) rest
    | s =>
      let (set, rest) ← classRange? flags s
      bracketItems? flags fuel (b.push set 0) rest

/-- Reads a class after its opening bracket. -/
def bracket? (flags : Flags) (s : List Char) : Option (Nested × List Char) := do
  let (negated, start, rest) ← bracketStart? flags s
  let (inner, rest) ← bracketItems? flags (rest.length + 1) start rest
  return (⟨← flags.classOf? negated inner.set, inner.depth + 1⟩, rest)

end Relabel.Pattern
