import Std.Data.TreeMap
import Relabel.Files.Path
import Relabel.Files.System

/-!
# File trees

A file tree is the whole of a file system without links: what lies at each location, where a
location is the list of names on the way from the root. Paths are seen from a working directory.
`fileSystem` carries the operations on files out on a tree.
-/

namespace Relabel

/-- What lies at a location. -/
inductive FileNode where
  | file (bytes : Bytes)
  | directory
  deriving DecidableEq, Repr

/-- The names on the way from the root. -/
abbrev Location := List String

/-- All files and directories. The root is always there. -/
structure FileTree where
  nodes : Std.TreeMap Location FileNode := {}
  /-- Where paths start. -/
  workingDirectory : Location := []

namespace FileTree

/-- What lies at a location. -/
def node? (t : FileTree) (location : Location) : Option FileNode :=
  if location.isEmpty then some .directory else t.nodes[location]?

/-- Whether a directory lies at a location. -/
def isDirectoryAt (t : FileTree) (location : Location) : Bool :=
  t.node? location = some .directory

/-! ### Paths -/

/-- Whether a name is longer than a name may be. -/
def isTooLong (name : String) : Bool :=
  255 < name.utf8ByteSize

/-- Follows names from a location. All but the last lead through directories; what the last one
leads to need not exist. -/
def follow (t : FileTree) : Location → List String → Except FileFault Location
  | location, [] => .ok location
  | location, step :: rest =>
    if !t.isDirectoryAt location then
      .error (if (t.node? location).isSome then .notDirectory else .notFound)
    else if step = "." then t.follow location rest
    else if step = ".." then t.follow location.dropLast rest
    else if isTooLong step then .error .nameTooLong
    else t.follow (location ++ [step]) rest

/-- The location that names lead to from where a path starts. -/
def locateSteps (t : FileTree) (path : String) (steps : List String) : Except FileFault Location :=
  if path.toList.contains (Char.ofNat 0) then .error .nulByte
  else if path = "" then .error .notFound
  else if 4096 ≤ path.utf8ByteSize then .error .nameTooLong
  else t.follow (if Path.isAbsolute path then [] else t.workingDirectory) steps

/-- The location that a path leads to. -/
def locate (t : FileTree) (path : String) : Except FileFault Location :=
  t.locateSteps path (Path.steps path)

/-- What a path leads to. -/
def find (t : FileTree) (path : String) : Except FileFault (Location × FileNode) := do
  let location ← t.locate path
  match t.node? location with
  | some node => return (location, node)
  | none => throw .notFound

/-- Whether a path leads anywhere. -/
def contains (t : FileTree) (path : String) : Bool :=
  (t.find path).isOk

/-- Whether a path leads to a directory. -/
def isDirectory (t : FileTree) (path : String) : Bool :=
  match t.find path with
  | .ok (_, .directory) => true
  | _ => false

/-! ### Reading -/

/-- The bytes of a file. -/
def readFile (t : FileTree) (path : String) : Except FileFault Bytes := do
  match ← t.find path with
  | (_, .file bytes) => return bytes
  | (_, .directory) => throw .isDirectory

/-- What a location has behind another. -/
def below? : Location → Location → Option (List String)
  | [], rest => some rest
  | _ :: _, [] => none
  | a :: start, b :: rest => if a = b then below? start rest else none

/-- The files below a directory. -/
def filesBelow (t : FileTree) (path : String) : Except FileFault (List (List String)) := do
  match ← t.find path with
  | (_, .file _) => throw .notDirectory
  | (start, .directory) =>
    return t.nodes.toList.filterMap fun
      | (location, .file _) => below? start location
      | (_, .directory) => none

/-! ### Writing -/

/-- Puts something at a location. -/
def put (t : FileTree) (location : Location) (node : FileNode) : FileTree :=
  { t with nodes := t.nodes.insert location node }

/-- Creates a directory in one that exists. -/
def createDirectory (t : FileTree) (path : String) : Except FileFault FileTree := do
  let location ← t.locate path
  if (t.node? location).isSome then throw .alreadyExists
  return t.put location .directory

/-- What a step on a tree gives: its result, and the tree afterwards. -/
abbrev Step (α : Type) := Except FileFault α × FileTree

/-- Tries to create a directory; one that is there already is as good. -/
def ensureDirectory (t : FileTree) (path : String) : Step Unit :=
  match t.createDirectory path with
  | .ok t => (.ok (), t)
  | .error fault => if t.isDirectory path then (.ok (), t) else (.error fault, t)

/-- Creates a directory after those it lies in. Each of these has a shorter path. -/
def createDirectoriesFrom : Nat → FileTree → String → Step Unit
  | 0, t, _ => (.error .notFound, t)
  | fuel + 1, t, path =>
    if path = "" then (.ok (), t)
    else match t.ensureDirectory path, Path.parent? path with
      | (.error .notFound, t), some parent =>
        match createDirectoriesFrom fuel t parent with
        | (.ok (), t) => t.ensureDirectory path
        | failed => failed
      | result, _ => result

/-- Creates a directory and those it lies in, as far as they are missing. -/
def createDirectories (t : FileTree) (path : String) : Step Unit :=
  createDirectoriesFrom (path.length + 1) t path

/-- Gives a file these bytes. A path with a slash at its end leads to no file. -/
def writeFile (t : FileTree) (path : String) (bytes : Bytes) : Except FileFault FileTree := do
  let hasSlash := Text.endsWith path "/"
  let location ← t.locateSteps path
    (if hasSlash then (Path.steps path).dropLast else Path.steps path)
  if hasSlash || t.isDirectoryAt location then throw .isDirectory
  return t.put location (.file bytes)

/-! ### As a file system -/

/-- The operations on files, carried out on a tree. -/
def fileSystem : FileSystem (StateM FileTree) where
  isDirectory path := do return (← get).isDirectory path
  readFile path := do return (← get).readFile path
  filesBelow path := do return (← get).filesBelow path
  createDirectories path := fun t => t.createDirectories path
  writeFile path bytes := fun t =>
    match t.writeFile path bytes with
    | .ok t => (.ok (), t)
    | .error fault => (.error fault, t)

end FileTree

end Relabel
