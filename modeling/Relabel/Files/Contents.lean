import Relabel.Catalog
import Relabel.Entries.Basic
import Relabel.Files.Path
import Relabel.Files.Problem

/-!
# Reading inputs

An input is a directory, a single class file, or else an archive. Its entries are classes, by the
ends of their paths, or resources; what lies below `META-INF/` is always a resource.
-/

namespace Relabel

/-- What an input holds. -/
structure Contents where
  classes : List LocatedClass := []
  resources : List Resource := []

namespace Contents

/-- The name of the class at a path. -/
def className? (path : String) : Option String :=
  if Text.startsWith path "META-INF/" then none
  else (Text.stripBack? ".class".toList path.toList).map String.ofList

/-- The classes and resources among entries with these paths and bytes. -/
def ofEntries (location : String) : List (String × Bytes) → Contents
  | [] => {}
  | (path, bytes) :: rest =>
    let set := ofEntries location rest
    match className? path with
    | some name => { set with classes := { name, location, bytes } :: set.classes }
    | none => { set with resources := { path, bytes } :: set.resources }

/-- The path of an entry, with slashes only. -/
def entryPath (name : String) : String :=
  Text.replaceChar '\\' '/' name

section

variable {m : Type → Type} [Monad m]

/-- Reads a directory. -/
def ofDirectory (files : FileSystem m) (root : String) : FilesT m Contents := do
  let found ← FilesT.attempt (.walk root) (files.filesBelow root)
  let entries ← found.mapM fun names => do
    let relative := Text.joinWith "/" names
    let path := Path.join root relative
    let bytes ← FilesT.attempt (.readFile path) (files.readFile path)
    return (entryPath relative, bytes)
  return ofEntries root entries

/-- Reads a single class file, which is named as the class says. -/
def ofClassFile (files : FileSystem m) (path : String) : FilesT m Contents := do
  let bytes ← FilesT.attempt (.readFile path) (files.readFile path)
  let c ← FilesT.ofExcept (.decodeClass path) (ClassFile.decode bytes)
  let name ← FilesT.ofExcept .className c.name
  return { classes := [{ name, location := path, bytes }] }

/-- The entries of an archive that are no directories. -/
def archiveEntries (location : String) (data : Array UInt8) :
    Except FileProblem (List (String × Bytes)) := do
  let lines ← (Archive.directory data).mapError (.readArchive location)
  let found ← lines.mapM fun line => do
    let raw ← (Archive.rawBytes data line).mapError .openEntry
    if line.isDirectory then return none
    let path := entryPath line.name
    let bytes ← (Archive.contents line raw).mapError (.readEntry path location)
    return some (path, bytes)
  return found.filterMap id

/-- Reads an archive. -/
def ofArchive (files : FileSystem m) (path : String) : FilesT m Contents := do
  let bytes ← FilesT.attempt (.openArchive path) (files.readFile path)
  let entries ← FilesT.ofExcept id (archiveEntries path bytes.toArray)
  return ofEntries path entries

/-- Reads what a path leads to. -/
def read (files : FileSystem m) (path : String) : FilesT m Contents := do
  if ← files.isDirectory path then ofDirectory files path
  else if Path.extension? path = some "class" then ofClassFile files path
  else ofArchive files path

end

end Contents

end Relabel
