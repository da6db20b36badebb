/-!
# Cutting texts

White space, lines, and the pieces of a text between separators. Texts are cut as lists of
characters; the functions on `String` wrap those.
-/

namespace Relabel.Text

/-- The characters with the Unicode property `White_Space`. -/
def isBlank (c : Char) : Bool :=
  let n := c.toNat
  (9 ≤ n && n ≤ 13) || n = 0x20 || n = 0x85 || n = 0xa0 || n = 0x1680 ||
    (0x2000 ≤ n && n ≤ 0x200a) || n = 0x2028 || n = 0x2029 || n = 0x202f || n = 0x205f || n = 0x3000

/-- Without the characters of a kind at its end. -/
def dropEndWhile (p : Char → Bool) (s : List Char) : List Char :=
  (s.reverse.dropWhile p).reverse

/-- Without white space at its two ends. -/
def trimChars (s : List Char) : List Char :=
  dropEndWhile isBlank (s.dropWhile isBlank)

/-- Without white space at its two ends. -/
def trim (s : String) : String :=
  String.ofList (trimChars s.toList)

/-- Puts a character in front of the first piece. -/
def consFirst (c : Char) : List (List Char) → List (List Char)
  | [] => [[c]]
  | piece :: pieces => (c :: piece) :: pieces

/-- The pieces between the separators: one more than there are separators. -/
def splitChars (sep : Char) (s : List Char) : List (List Char) :=
  s.foldr (fun c pieces => if c = sep then [] :: pieces else consFirst c pieces) [[]]

/-- The pieces between the separators: one more than there are separators. -/
def split (sep : Char) (s : String) : List String :=
  (splitChars sep s.toList).map String.ofList

/-- Without one carriage return at its end. -/
def dropReturn (line : List Char) : List Char :=
  match line.reverse with
  | '\r' :: rest => rest.reverse
  | _ => line

/-- The lines of a text as characters. A line ends at a line feed, which takes one carriage
return before it along; nothing after the last line feed is no line. -/
def lineChars (s : List Char) : List (List Char) :=
  let pieces := splitChars '\n' s
  let last := pieces.getLast?.getD []
  pieces.dropLast.map dropReturn ++ (if last.isEmpty then [] else [last])

/-- The lines of a text. -/
def lines (s : String) : List String :=
  (lineChars s.toList).map String.ofList

/-- The parts before and after the first separator. -/
def splitFirst? (sep : Char) (s : List Char) : Option (List Char × List Char) :=
  match s.span (· ≠ sep) with
  | (before, _ :: after) => some (before, after)
  | (_, []) => none

/-- The parts before and after the first place where one character follows another. -/
def splitAtPair? (a b : Char) : List Char → Option (List Char × List Char)
  | c :: d :: rest =>
    if c = a ∧ d = b then some ([], rest)
    else (splitAtPair? a b (d :: rest)).map fun (before, after) => (c :: before, after)
  | _ => none

/-- The parts before and after the last separator. -/
def splitLast? (sep : Char) (s : List Char) : Option (List Char × List Char) :=
  match s.reverse.span (· ≠ sep) with
  | (after, _ :: before) => some (before.reverse, after.reverse)
  | (_, []) => none

/-- What follows the last separator; all of it where there is none. -/
def afterLast (sep : Char) (s : List Char) : List Char :=
  (s.reverse.takeWhile (· ≠ sep)).reverse

/-- What a text holds after `front`, where it starts with it. -/
def stripFront? : List Char → List Char → Option (List Char)
  | [], rest => some rest
  | _ :: _, [] => none
  | f :: front, c :: rest => if f = c then stripFront? front rest else none

theorem stripFront?_eq_some_iff {front s rest : List Char} :
    stripFront? front s = some rest ↔ s = front ++ rest := by
  fun_induction stripFront? front s with
  | case1 s => simp
  | case2 => simp
  | case3 f front s ih => simpa using ih
  | case4 f front c s h => simp [Ne.symm h]

/-- Whether a text starts with another. -/
def startsWith (s front : String) : Bool :=
  (stripFront? front.toList s.toList).isSome

/-- What a text holds before `back`, where it ends with it. -/
def stripBack? (back s : List Char) : Option (List Char) :=
  (stripFront? back.reverse s.reverse).map List.reverse

theorem stripBack?_eq_some_iff {back s rest : List Char} :
    stripBack? back s = some rest ↔ s = rest ++ back := by
  simp only [stripBack?, Option.map_eq_some_iff, stripFront?_eq_some_iff]
  constructor
  · rintro ⟨r, h, rfl⟩
    rw [← List.reverse_reverse s, h]
    simp
  · rintro rfl
    exact ⟨rest.reverse, by simp, by simp⟩

/-- Whether a text ends with another. -/
def endsWith (s back : String) : Bool :=
  (stripBack? back.toList s.toList).isSome

/-- One character for another throughout. -/
def replaceChar (old new : Char) (s : String) : String :=
  String.ofList (s.toList.map fun c => if c = old then new else c)

/-- Upper case for the letters of ASCII, all else as it is. -/
def upperAscii (s : String) : String :=
  String.ofList (s.toList.map Char.toUpper)

/-- Lower case for the letters of ASCII, all else as it is. -/
def lowerAscii (s : String) : String :=
  String.ofList (s.toList.map Char.toLower)

/-- Whether a list of texts stands before another or is equal to it: by the first texts that differ,
and a list before its extensions. -/
def precedes : List String → List String → Bool
  | [], _ => true
  | _ :: _, [] => false
  | a :: as, b :: bs => a < b || (a = b && precedes as bs)

/-- Texts joined with a separator between them. -/
def joinWith (sep : String) : List String → String
  | [] => ""
  | [s] => s
  | s :: rest => s ++ sep ++ joinWith sep rest

end Relabel.Text
