import Relabel.Entries.Basic
import Relabel.Files.Path
import Relabel.Files.Problem

/-!
# Writing outputs

Entries are written as one archive or, below a directory, as a file each. The extension of the path
tells which.
-/

namespace Relabel

namespace Entries

variable {m : Type → Type} [Monad m]

/-- Creates a directory. -/
def createDirectories (files : FileSystem m) (path : String) : FilesT m Unit :=
  FilesT.attempt (.create path) (files.createDirectories path)

/-- Writes an archive, after the directory that holds it. -/
def writeArchive (files : FileSystem m) (path : String) (e : Entries) : FilesT m Unit := do
  match Path.parent? path with
  | some parent => if parent ≠ "" then createDirectories files parent
  | none => pure ()
  let bytes := Archive.encode (e.toList.map fun (name, bytes) => { name, bytes })
  FilesT.attempt (.create path) (files.writeFile path bytes)

/-- Whether one of the names of a path is that of the directory above. -/
def climbs (path : String) : Bool :=
  (Text.split '/' path).contains ".."

/-- Writes an entry below a directory. -/
def writeEntry (files : FileSystem m) (root : String) : String × Bytes → FilesT m Unit
  | (path, bytes) => do
    if climbs path then throw (.outside path)
    let target := Path.join root path
    match Path.parent? target with
    | some parent => createDirectories files parent
    | none => pure ()
    FilesT.attempt (.writeFile target) (files.writeFile target bytes)

/-- Writes every entry below a directory. -/
def writeDirectory (files : FileSystem m) (root : String) (e : Entries) : FilesT m Unit :=
  e.toList.forM (writeEntry files root)

/-- Whether a path is that of an archive. -/
def isArchivePath (path : String) : Bool :=
  match Path.extension? path with
  | some extension => Text.lowerAscii extension = "jar" || Text.lowerAscii extension = "zip"
  | none => false

/-- Writes the entries where a path leads. -/
def write (files : FileSystem m) (path : String) (e : Entries) : FilesT m Unit :=
  if isArchivePath path then e.writeArchive files path else e.writeDirectory files path

end Entries

end Relabel
