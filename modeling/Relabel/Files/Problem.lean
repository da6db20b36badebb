import Relabel.ClassFile.Error
import Relabel.Archive.Content
import Relabel.Files.System

/-!
# Problems with files

Why an input could not be read or an output not be written, as a list of messages: what was tried,
then what it failed for.
-/

namespace Relabel

/-- A problem with files. -/
inductive FileProblem where
  | readFile (path : String) (fault : FileFault)
  | walk (path : String) (fault : FileFault)
  | decodeClass (path : String) (e : FormatError)
  /-- The name of a class cannot be read. -/
  | className (e : FormatError)
  | openArchive (path : String) (fault : FileFault)
  | readArchive (path : String) (e : Archive.Error)
  | openEntry (e : Archive.Error)
  | readEntry (name location : String) (e : Archive.EntryError)
  | create (path : String) (fault : FileFault)
  | writeFile (path : String) (fault : FileFault)
  /-- An entry would lie outside of the directory to write to. -/
  | outside (path : String)
  deriving DecidableEq, Repr

/-- The problem in words, outermost first. -/
def FileProblem.chain : FileProblem → List String
  | .readFile path fault => ["Failed to read " ++ path, fault.message]
  | .walk path fault => ["Failed to walk " ++ path, fault.message]
  | .decodeClass path e => ["Failed to decode " ++ path, e.message]
  | .className e => [e.message]
  | .openArchive path fault => ["Failed to open archive: " ++ path, fault.message]
  | .readArchive path e => ("Failed to read zip structure: " ++ path) :: e.chain
  | .openEntry e => e.chain
  | .readEntry name location e => [s!"Failed to read {name} from {location}", e.message]
  | .create path fault => ["Failed to create " ++ path, fault.message]
  | .writeFile path fault => ["Failed to write " ++ path, fault.message]
  | .outside path => ["refusing to write entry outside the output directory: " ++ path]

/-- Operations on files that may end in a problem. -/
abbrev FilesT (m : Type → Type) := ExceptT FileProblem m

/-- Carries an operation on files out. -/
def FilesT.attempt [Monad m] (problem : FileFault → FileProblem) (act : m (Except FileFault α)) :
    FilesT m α := do
  match ← act with
  | .ok a => return a
  | .error fault => throw (problem fault)

/-- Goes on with a result. -/
def FilesT.ofExcept [Monad m] (problem : ε → FileProblem) : Except ε α → FilesT m α
  | .ok a => return a
  | .error e => throw (problem e)

end Relabel
