import Relabel.Bytes

/-!
# Files

The operations on files that the program is made of. What carries them out, and the effects they
have, is given by a `FileSystem`.
-/

namespace Relabel

/-- Why an operation on files failed. -/
inductive FileFault where
  | notFound
  | notDirectory
  | isDirectory
  | alreadyExists
  | nameTooLong
  | nulByte
  | notUtf8
  /-- Anything else, with the words of the system. -/
  | other (message : String)
  deriving DecidableEq, Repr

/-- The fault in words. -/
def FileFault.message : FileFault → String
  | .notFound => "No such file or directory (os error 2)"
  | .notDirectory => "Not a directory (os error 20)"
  | .isDirectory => "Is a directory (os error 21)"
  | .alreadyExists => "File exists (os error 17)"
  | .nameTooLong => "File name too long (os error 36)"
  | .nulByte => "file name contained an unexpected NUL byte"
  | .notUtf8 => "stream did not contain valid UTF-8"
  | .other message => message

/-- Operations on files. -/
structure FileSystem (m : Type → Type) where
  /-- Whether a path leads to a directory. -/
  isDirectory : String → m Bool
  /-- The bytes of a file. -/
  readFile : String → m (Except FileFault Bytes)
  /-- The files below a directory, as names on the way from it, in the order of those. -/
  filesBelow : String → m (Except FileFault (List (List String)))
  /-- Creates a directory and those it lies in, as far as they are missing. -/
  createDirectories : String → m (Except FileFault Unit)
  /-- Gives a file these bytes; it is created where there is none. -/
  writeFile : String → Bytes → m (Except FileFault Unit)

end Relabel
