import Relabel.Program

/-!
# The command line

Carries the program out on the files of the machine.
-/

namespace Relabel

/-- What the system says of a failed operation. -/
def FileFault.ofSystem : IO.Error → FileFault
  | .noFileOrDirectory _ _ _ => .notFound
  | .alreadyExists _ _ _ => .alreadyExists
  | .inappropriateType _ 20 _ => .notDirectory
  | .inappropriateType _ 21 _ => .isDirectory
  | .invalidArgument _ 36 _ => .nameTooLong
  | .permissionDenied _ code _ => .other s!"Permission denied (os error {code})"
  | e => .other (toString e)

namespace Machine

/-- Tries an operation. -/
def attempt (act : IO α) : IO (Except FileFault α) := do
  try return .ok (← act)
  catch e => return .error (.ofSystem e)

/-- Whether a path leads to a directory. -/
def isDirectory (path : String) : IO Bool := do
  match ← attempt (do (← IO.FS.realPath path).isDir) with
  | .ok answer => return answer
  | .error _ => return false

/-- The files below a directory, by the names on the way to them. -/
def filesBelow (path : String) : IO (List (List String)) := do
  let root ← IO.FS.realPath path
  let found ← root.walkDir
  let files ← found.toList.filterM fun p => do return (← p.metadata).type == .file
  let names := files.map fun p => p.components.drop root.components.length
  return names.mergeSort Text.precedes

/-- The operations on files, carried out on the machine. -/
def fileSystem : FileSystem IO where
  isDirectory := isDirectory
  readFile path := attempt do return (← IO.FS.readBinFile path).data.toList
  filesBelow path := attempt (filesBelow path)
  createDirectories path := attempt (IO.FS.createDirAll path)
  writeFile path bytes := attempt (IO.FS.writeBinFile path ⟨bytes.toArray⟩)

end Machine

end Relabel

open Relabel in
/-- Runs the program and reports how it ended. -/
def main (arguments : List String) : IO UInt32 := do
  let start ← IO.monoMsNow
  let outcome ← Program.run Machine.fileSystem 1 arguments
  match outcome with
  | .refused .helpRequested => IO.println (CommandLine.UsageError.message .helpRequested)
  | .refused e => IO.eprintln ("error: " ++ e.message)
  | .failed e => IO.eprintln e.text
  | .finished summary =>
    let durationMs := (← IO.monoMsNow) - start
    IO.println { summary with durationMs }.toJson.pretty
  return outcome.exitCode.toUInt32
