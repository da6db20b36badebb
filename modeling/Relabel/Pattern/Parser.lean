import Relabel.Pattern.Bracket
import Relabel.Pattern.Size
import Relabel.Text.Letters

/-!
# Reading regular expressions

Literals, `.`, anchors, classes, escapes, repetitions (also those that prefer less, which makes no
difference to a search), alternatives, groups, and flags such as `(?i)`, which hold up to the end
of the group around them. Expressions that nest too deep and those with too large an automaton are
refused.
-/

namespace Relabel.Pattern

open Text (CharClass)

/-! ### Building patterns -/

/-- Any character, or any that does not end a line. Where only ASCII counts, there is no such class:
it would hold bytes that are not characters. -/
def dot? (flags : Flags) : Option Pattern :=
  if !flags.unicode then none
  else if flags.dotAll then some (.one .full)
  else if flags.returns then some (.one (CharClass.complement [(10, 10), (13, 13)]))
  else some (.one (CharClass.complement [(10, 10)]))

/-- The pattern of one character. -/
def literal (flags : Flags) (c : Char) : Pattern :=
  let s := CharClass.single c.toNat
  .one ((flags.classOf? false s).getD s)

/-- The start of the text or of a line. -/
def startAnchor (flags : Flags) : Anchor :=
  if !flags.multiLine then .textStart
  else if flags.returns then .returnLineStart
  else .lineStart

/-- The end of the text or of a line. -/
def endAnchor (flags : Flags) : Anchor :=
  if !flags.multiLine then .textEnd
  else if flags.returns then .returnLineEnd
  else .lineEnd

/-- Whether the pattern is found only without characters. -/
def isEmptyOnly : Pattern → Bool
  | .empty | .anchor _ => true
  | .one _ => false
  | .seq p q | .alt p q => isEmptyOnly p && isEmptyOnly q
  | .repeated p _ _ | .group p => isEmptyOnly p

/-- A pattern repeated. What takes no characters is found any number of times where it is found
once. -/
def times (p : Pattern) (min : Nat) (max : Option Nat) : Pattern :=
  let (min, max) :=
    if isEmptyOnly p then (min.min 1, some ((max.getD 1).min 1)) else (min, max)
  if max = some 0 then .empty
  else if min = 1 ∧ max = some 1 then p
  else .repeated p min max

/-- Patterns in a row. -/
def row : List Pattern → Pattern
  | [] => .empty
  | [p] => p
  | .empty :: rest => row rest
  | p :: rest =>
    match row rest with
    | .empty => p
    | q => .seq p q

/-- The classes of patterns that all take one character. -/
def classes? (ps : List Pattern) : Option (List CharClass) :=
  ps.mapM fun p => match p with
    | .one s => some s
    | _ => none

/-- Whether a class has exactly one character. -/
def isSingle (s : CharClass) : Bool :=
  match s with
  | [(low, high)] => low = high
  | _ => false

/-- Patterns as alternatives, the first one apart. Single characters are one class, and so are
classes. -/
def alternatives (p : Pattern) (ps : List Pattern) : Pattern :=
  let separate := (p :: ps).dropLast.foldr Pattern.alt ((p :: ps).getLast?.getD .empty)
  if ps.isEmpty then p
  else match classes? (p :: ps) with
    | some sets =>
      if sets.all isSingle || sets.all (!isSingle ·) then .one (.unions sets) else separate
    | none => separate

/-! ### Repetitions -/

/-- Reads a decimal number, with white space around it. -/
def number? (flags : Flags) (s : List Char) : Option (Nat × List Char) :=
  let (digits, rest) := flags.span Char.isDigit false (s.dropWhile Text.isBlank)
  let n := digits.foldl (fun n c => 10 * n + (c.toNat - 48)) 0
  if digits.isEmpty ∨ UInt32.size ≤ n then none else some (n, rest.dropWhile Text.isBlank)

/-- The bounds of a repetition. -/
structure Bounds where
  min : Nat
  max : Option Nat

/-- Reads the bounds of a repetition after its opening brace. -/
def bounds? (flags : Flags) (s : List Char) : Option (Bounds × List Char) := do
  let (min, rest) ← number? flags (flags.skip s)
  match rest with
  | '\x7d' :: rest => return (⟨min, some min⟩, rest)
  | ',' :: rest =>
    match flags.skip rest with
    | '\x7d' :: rest => return (⟨min, none⟩, rest)
    | rest =>
      match ← number? flags rest with
      | (max, '\x7d' :: rest) => if min ≤ max then return (⟨min, some max⟩, rest) else none
      | _ => none
  | _ => none

/-- Without the mark of a repetition that prefers less. -/
def dropLazy : List Char → List Char
  | '?' :: rest => rest
  | rest => rest

/-- Reads a repetition that starts with this character, if one does, and the mark after it. -/
def repetition? (flags : Flags) (c : Char) (rest : List Char) :
    Option (Option (Bounds × List Char)) :=
  if c = '*' then some (some (⟨0, none⟩, dropLazy rest))
  else if c = '+' then some (some (⟨1, none⟩, dropLazy rest))
  else if c = '?' then some (some (⟨0, some 1⟩, dropLazy rest))
  else if c = '\x7b' then
    some ((bounds? flags rest).map fun (b, rest) => (b, dropLazy (flags.skip rest)))
  else none

/-! ### Groups -/

/-- How a group starts. -/
inductive GroupStart where
  /-- A group that keeps what is found, under a name or without one. -/
  | keeping (name : Option (List Char)) (rest : List Char)
  /-- A group with flags of its own. -/
  | group (flags : Flags) (rest : List Char)
  /-- No group, but a change of flags. -/
  | change (flags : Flags) (rest : List Char)

/-- Turns a flag on or off. -/
def Flags.set? (flags : Flags) (on : Bool) : Char → Option Flags
  | 'i' => some { flags with ignoreCase := on }
  | 'm' => some { flags with multiLine := on }
  | 's' => some { flags with dotAll := on }
  | 'R' => some { flags with returns := on }
  | 'u' => some { flags with unicode := on }
  | 'x' => some { flags with extended := on }
  | 'U' => some flags
  | _ => none

/-- Reads flags: those before a minus are turned on and those after it off. Neither a flag nor the
minus may stand twice, and a flag has to follow the minus. `seen` holds what stood before, the last
first. -/
def groupFlags? (seen : List Char) (flags : Flags) : List Char → Option GroupStart
  | [] => none
  | c :: rest =>
    if c = ':' then
      if seen.head? = some '-' then none else some (.group flags rest)
    else if c = ')' then
      if seen.isEmpty ∨ seen.head? = some '-' then none else some (.change flags rest)
    else if seen.contains c then none
    else if c = '-' then groupFlags? (c :: seen) flags rest
    else (flags.set? (!seen.contains '-') c).bind fun flags => groupFlags? (c :: seen) flags rest

/-- Whether a character may stand in the name of a group. -/
def isNameChar (first : Bool) (c : Char) : Bool :=
  if first then c = '_' || Text.isAlphabetic c
  else c = '_' || c = '.' || c = '[' || c = ']' || Text.isAlphanumeric c

/-- Reads the name of a group up to the bracket that ends it. -/
def groupName? (s : List Char) : Option GroupStart := do
  match Text.splitFirst? '>' s with
  | some (c :: more, rest) =>
    if isNameChar true c && more.all (isNameChar false) then some (.keeping (c :: more) rest)
    else none
  | _ => none

/-- Reads the start of a group after its opening parenthesis. Conditions on what stands before or
after a position are not supported. -/
def groupStart? (flags : Flags) (s : List Char) : Option GroupStart :=
  match flags.skip s with
  | '?' :: 'P' :: '<' :: rest => groupName? rest
  | '?' :: '<' :: rest => groupName? rest
  | '?' :: rest => groupFlags? [] flags rest
  | s => some (.keeping none s)

/-! ### Expressions -/

/-- A pattern, and how deep the expression for it nests. -/
structure Item where
  pattern : Pattern
  depth : Nat
  /-- A change of flags, which cannot be repeated. -/
  isChange : Bool := false

/-- The depth of several items together. -/
def joinedDepth (items : List Item) : Nat :=
  let depth := (items.map (·.depth)).foldl max 0
  if items.length ≤ 1 then depth else depth + 1

/-- What has been read of a group, in reverse: the alternatives before the last `|`, and the items
after it. -/
structure GroupBody where
  before : List Item := []
  items : List Item := []

/-- The items after the last `|` in a row. -/
def GroupBody.row (b : GroupBody) : Item :=
  ⟨Pattern.row (b.items.reverse.map (·.pattern)), joinedDepth b.items, false⟩

/-- All alternatives read. -/
def GroupBody.result (b : GroupBody) : Item :=
  let all := (b.row :: b.before).reverse
  match all.map (·.pattern) with
  | p :: ps => ⟨alternatives p ps, joinedDepth all, false⟩
  | [] => b.row

/-- With one more item. -/
def GroupBody.push (b : GroupBody) (pattern : Pattern) (depth : Nat) : GroupBody :=
  { b with items := ⟨pattern, depth, false⟩ :: b.items }

/-- The items of a group, the names of the groups up to its end, and what follows. -/
structure Reading where
  item : Item
  names : List (List Char)
  rest : List Char

/-- Reads items up to the end of the text or a closing parenthesis that closes no group inside.
`names` holds the names of the groups before, no two of which are the same. -/
def items? : Nat → Flags → List (List Char) → GroupBody → List Char → Option Reading
  | 0, _, _, _, _ => none
  | fuel + 1, flags, names, b, s => do
    match flags.skip s with
    | [] => return ⟨b.result, names, []⟩
    | c :: rest =>
      if c = ')' then return ⟨b.result, names, c :: rest⟩
      -- A change of flags goes on to hold in the alternatives after it.
      else if c = '|' then items? fuel flags names { before := b.row :: b.before } rest
      else if c = '(' then
        match ← groupStart? flags rest with
        | .change flags rest =>
          items? fuel flags names { b with items := ⟨.empty, 0, true⟩ :: b.items } rest
        | .group inner rest =>
          match ← items? fuel inner names {} rest with
          | ⟨item, names, ')' :: rest⟩ =>
            items? fuel flags names (b.push item.pattern (item.depth + 1)) rest
          | _ => none
        | .keeping name rest =>
          -- Names are given once, also across nested groups.
          if name.any names.contains then none
          else match ← items? fuel flags (name.toList ++ names) {} rest with
            | ⟨item, names, ')' :: rest⟩ =>
              items? fuel flags names (b.push (.group item.pattern) (item.depth + 1)) rest
            | _ => none
      else if c = '[' then
        let (s, rest) ← bracket? flags rest
        items? fuel flags names (b.push (.one s.set) s.depth) rest
      else if c = '\\' then
        match ← escape? flags rest with
        | (.char c, rest) => items? fuel flags names (b.push (literal flags c) 0) rest
        | (.set s, rest) => items? fuel flags names (b.push (.one s) 0) rest
        | (.anchor a, rest) => items? fuel flags names (b.push (.anchor a) 0) rest
      else if c = '.' then items? fuel flags names (b.push (← dot? flags) 0) rest
      else if c = '^' then
        items? fuel flags names (b.push (.anchor (startAnchor flags)) 0) rest
      else if c = '$' then items? fuel flags names (b.push (.anchor (endAnchor flags)) 0) rest
      else match repetition? flags c rest with
        | none => items? fuel flags names (b.push (literal flags c) 0) rest
        | some bounds =>
          let (bounds, rest) ← bounds
          match b.items with
          | item :: before =>
            -- There is nothing to repeat in a change of flags.
            if item.isChange then none
            else
              let p := times item.pattern bounds.min bounds.max
              items? fuel flags names
                { b with items := ⟨p, item.depth + 1, false⟩ :: before } rest
          | [] => none

/-- How deep expressions may nest. -/
def depthLimit : Nat := 250

/-- Reads a regular expression. -/
def parse? (text : String) : Option Pattern := do
  let s := text.toList
  match ← items? (s.length + 1) {} [] {} s with
  | ⟨item, _, []⟩ =>
    if item.depth ≤ depthLimit && item.pattern.isWithinLimit then item.pattern else none
  | _ => none

end Relabel.Pattern
