import Relabel.Bytes
import Relabel.Pattern
import Relabel.Text.CaseFolding
import Relabel.Text.CharClass.Lookup

/-!
# Escapes in regular expressions

What a backslash introduces: characters that would mean something else, characters by number,
classes of characters, and conditions on positions. What an escape stands for depends on the
flags in force.
-/

namespace Relabel.Pattern

open Text (CharClass)

/-- The flags in force. -/
structure Flags where
  ignoreCase : Bool := false
  multiLine : Bool := false
  dotAll : Bool := false
  /-- Carriage returns end lines too. -/
  returns : Bool := false
  /-- Classes hold characters of all of Unicode, and not of ASCII alone. -/
  unicode : Bool := true
  /-- Blanks and comments do not count. -/
  extended : Bool := false

/-- Without the blanks and comments in front; `inComment` tells that a comment is under way. -/
def dropIgnored (inComment : Bool) : List Char → List Char
  | [] => []
  | c :: rest =>
    if inComment then dropIgnored (c ≠ '\n') rest
    else if Text.isBlank c then dropIgnored false rest
    else if c = '#' then dropIgnored true rest
    else c :: rest

/-- Without what does not count in front. -/
def Flags.skip (flags : Flags) (s : List Char) : List Char :=
  if flags.extended then dropIgnored false s else s

/-- The longest front of characters of a kind, without what does not count, and the rest. -/
def Flags.span (flags : Flags) (p : Char → Bool) (inComment : Bool) :
    List Char → List Char × List Char
  | [] => ([], [])
  | c :: rest =>
    if flags.extended && inComment then flags.span p (c ≠ '\n') rest
    else if flags.extended && Text.isBlank c then flags.span p false rest
    else if flags.extended && c = '#' then flags.span p true rest
    else if p c then
      let (front, rest) := flags.span p false rest
      (c :: front, rest)
    else ([], c :: rest)

/-- The characters of ASCII that words are made of. -/
def asciiWordCharacters : CharClass :=
  [(0x30, 0x39), (0x41, 0x5a), (0x5f, 0x5f), (0x61, 0x7a)]

/-- The characters that words are made of. -/
def Flags.wordCharacters (flags : Flags) : CharClass :=
  if flags.unicode then Text.wordCharacters else asciiWordCharacters

/-- A class in its final form: it may ignore case, and it may be negated, unless only ASCII counts,
where what is outside a class would not be a character. -/
def Flags.classOf? (flags : Flags) (negated : Bool) (s : CharClass) : Option CharClass :=
  if flags.unicode then
    let s := if flags.ignoreCase then s.ignoringCase else s
    some (if negated then s.complement else s)
  else if negated then none
  else some (if flags.ignoreCase then s.ignoringAsciiCase else s)

/-- What an escape stands for. -/
inductive Escape where
  | char (c : Char)
  | set (s : CharClass)
  | anchor (a : Anchor)

/-! ### Characters by number -/

/-- Whether a character is a hexadecimal digit. -/
def isHexDigit (c : Char) : Bool :=
  (Bytes.hexValue? c).isSome

/-- A code point given by hexadecimal digits. -/
def codePoint? (digits : List Char) : Option Char :=
  let n := Text.hexValue digits
  if !digits.isEmpty ∧ n.isValidChar then some (Char.ofNat n) else none

/-- Reads a number of hexadecimal digits. -/
def fixedDigits? (flags : Flags) : Nat → List Char → Option (List Char × List Char)
  | 0, s => some ([], s)
  | _ + 1, [] => none
  | n + 1, c :: rest =>
    if isHexDigit c then
      (fixedDigits? flags n (flags.skip rest)).map fun (digits, rest) => (c :: digits, rest)
    else none

/-- Reads hexadecimal digits: `width` of them, or any number between braces. Where only ASCII
counts, two digits stand for a byte, and that has to be a character. -/
def hexEscape? (flags : Flags) (width : Nat) (s : List Char) : Option (Char × List Char) := do
  match flags.skip s with
  | '\x7b' :: rest =>
    match flags.span isHexDigit false rest with
    | (digits, '\x7d' :: rest) => return (← codePoint? digits, flags.skip rest)
    | _ => none
  | s =>
    let (digits, rest) ← fixedDigits? flags width s
    let c ← codePoint? digits
    if !flags.unicode ∧ width = 2 ∧ 0x80 ≤ c.toNat then none else return (c, rest)

/-! ### Classes -/

/-- The white space of ASCII. -/
def asciiSpace : CharClass :=
  [(9, 13), (0x20, 0x20)]

/-- The classes of ASCII characters by name. -/
def asciiClass? (name : List Char) : Option CharClass :=
  match String.ofList name with
  | "alnum" => some [(0x30, 0x39), (0x41, 0x5a), (0x61, 0x7a)]
  | "alpha" => some [(0x41, 0x5a), (0x61, 0x7a)]
  | "ascii" => some [(0, 0x7f)]
  | "blank" => some [(9, 9), (0x20, 0x20)]
  | "cntrl" => some [(0, 0x1f), (0x7f, 0x7f)]
  | "digit" => some [(0x30, 0x39)]
  | "graph" => some [(0x21, 0x7e)]
  | "lower" => some [(0x61, 0x7a)]
  | "print" => some [(0x20, 0x7e)]
  | "punct" => some [(0x21, 0x2f), (0x3a, 0x40), (0x5b, 0x60), (0x7b, 0x7e)]
  | "space" => some asciiSpace
  | "upper" => some [(0x41, 0x5a)]
  | "word" => some asciiWordCharacters
  | "xdigit" => some [(0x30, 0x39), (0x41, 0x46), (0x61, 0x66)]
  | _ => none

/-- The digits, white space or word characters, or all others. -/
def shortClass? (flags : Flags) (letter : Char) : Option CharClass :=
  let of (unicode ascii : CharClass) := if flags.unicode then unicode else ascii
  let but (s : CharClass) := if flags.unicode then some s.complement else none
  let digit := of (Text.inCategories ["Nd"]) [(0x30, 0x39)]
  let space := of (Text.listed "White_Space") asciiSpace
  match letter with
  | 'd' => some digit
  | 'D' => but digit
  | 's' => some space
  | 'S' => but space
  | 'w' => some flags.wordCharacters
  | 'W' => but flags.wordCharacters
  | _ => none

/-- The class that a name between braces stands for: a property, or a property and its value with
`=`, `:` or `!=` between them. -/
def propertyClass? (flags : Flags) (negated : Bool) (name : List Char) : Option CharClass := do
  match Text.splitAtPair? '!' '=' name with
  | some (property, value) => flags.classOf? (!negated) (← CharClass.ofValue? property value)
  | none =>
    match Text.splitFirst? ':' name <|> Text.splitFirst? '=' name with
    | some (property, value) => flags.classOf? negated (← CharClass.ofValue? property value)
    | none => flags.classOf? negated (← CharClass.ofName? name)

/-- Reads the name of a property: one letter, or any name between braces. -/
def propertyEscape? (flags : Flags) (negated : Bool) (s : List Char) :
    Option (CharClass × List Char) := do
  if !flags.unicode then none
  else match flags.skip s with
    | [] => none
    | '\x7b' :: rest =>
      match flags.span (· ≠ '\x7d') false rest with
      | (name, '\x7d' :: rest) => return (← propertyClass? flags negated name, rest)
      | _ => none
    | c :: rest => return (← flags.classOf? negated (← CharClass.ofName? [c]), flags.skip rest)

/-! ### Conditions on positions -/

/-- The edges of words by name. -/
def wordEdge? (name : List Char) : Option WordEdge :=
  match String.ofList name with
  | "start" => some .wordStart
  | "end" => some .wordEnd
  | "start-half" => some .noWordBefore
  | "end-half" => some .noWordAfter
  | _ => none

/-- Reads the name of an edge between braces, where one follows; braces with anything but a name are
left to be read as a repetition. -/
def boundary? (flags : Flags) (s : List Char) : Option (WordEdge × List Char) :=
  let inName (c : Char) := c.isAlpha || c = '-'
  match s with
  | '\x7b' :: rest =>
    match flags.skip rest with
    | [] => none
    | c :: _ =>
      if inName c then
        match flags.span inName false rest with
        | (name, '\x7d' :: rest) => (wordEdge? name).map (·, rest)
        | _ => none
      else some (.boundary, s)
  | _ => some (.boundary, s)

/-! ### Escapes -/

/-- The controls that a letter stands for. -/
def control? (letter : Char) : Option Char :=
  match letter with
  | 'a' => some '\x07'
  | 'f' => some '\x0c'
  | 't' => some '\t'
  | 'n' => some '\n'
  | 'r' => some '\r'
  | 'v' => some '\x0b'
  | _ => none

/-- Whether a character stands for itself after a backslash. -/
def isPlainEscape (c : Char) : Bool :=
  c.toNat < 0x80 && !c.isAlphanum && c ≠ '<' && c ≠ '>'

/-- Reads what follows a backslash. -/
def escape? (flags : Flags) (s : List Char) : Option (Escape × List Char) := do
  let word (edge : WordEdge) := Escape.anchor (.word edge flags.wordCharacters)
  match s with
  | [] => none
  | 'x' :: rest => let (c, rest) ← hexEscape? flags 2 rest; return (.char c, rest)
  | 'u' :: rest => let (c, rest) ← hexEscape? flags 4 rest; return (.char c, rest)
  | 'U' :: rest => let (c, rest) ← hexEscape? flags 8 rest; return (.char c, rest)
  | 'p' :: rest => let (s, rest) ← propertyEscape? flags false rest; return (.set s, rest)
  | 'P' :: rest => let (s, rest) ← propertyEscape? flags true rest; return (.set s, rest)
  | 'b' :: rest => let (edge, rest) ← boundary? flags rest; return (word edge, rest)
  | 'B' :: rest => return (word .noBoundary, rest)
  | '<' :: rest => return (word .wordStart, rest)
  | '>' :: rest => return (word .wordEnd, rest)
  | 'A' :: rest => return (.anchor .textStart, rest)
  | 'z' :: rest => return (.anchor .textEnd, rest)
  | c :: rest =>
    if isPlainEscape c then return (.char c, rest)
    else match control? c with
      | some control => return (.char control, rest)
      | none => return (.set (← shortClass? flags c), rest)

end Relabel.Pattern
