import Relabel.Text.Split

/-!
# Paths

Paths as texts, with a slash between names. Slashes at the end, and `.` behind a slash, name nothing
of their own. A path that starts with a slash does not depend on the directory it is seen from.
-/

namespace Relabel.Path

/-- Whether a path starts at the root. -/
def isAbsolute (path : String) : Bool :=
  Text.startsWith path "/"

/-- The names on the way of a path, and a `.` for a slash at its end. -/
def steps (path : String) : List String :=
  let names := (Text.split '/' path).filter (· ≠ "")
  if Text.endsWith path "/" then names ++ ["."] else names

/-- Without what names nothing at its end. The characters stand in reverse. -/
def trimEnd : List Char → List Char
  | '/' :: rest => trimEnd rest
  | '.' :: '/' :: rest => trimEnd rest
  | s => s

/-- The path of the directory that holds what a path leads to. The root, and nothing, are held by
none. -/
def parent? (path : String) : Option String :=
  let body := trimEnd path.toList.reverse
  if body.isEmpty then none
  else
    let parent := trimEnd (body.dropWhile (· ≠ '/'))
    if parent.isEmpty && isAbsolute path then some "/"
    else some (String.ofList parent.reverse)

/-- The last name of a path. -/
def fileName? (path : String) : Option (List Char) :=
  let name := ((trimEnd path.toList.reverse).takeWhile (· ≠ '/')).reverse
  if name = [] || name = ['.'] || name = ['.', '.'] then none else some name

/-- What follows the last dot of the last name, unless nothing stands in front of it. -/
def extension? (path : String) : Option String := do
  let (stem, extension) ← Text.splitLast? '.' (← fileName? path)
  if stem.isEmpty then none else some (String.ofList extension)

/-- A path seen from a directory. -/
def join (directory path : String) : String :=
  if isAbsolute path || directory = "" then path
  else if Text.endsWith directory "/" then directory ++ path
  else directory ++ "/" ++ path

end Relabel.Path
