import Relabel.CommandLine.Parser
import Relabel.Files.Contents
import Relabel.Files.Sink
import Relabel.Summary

/-!
# The program

What the command line program does, over any file system: it reads the command line, the mappings,
the input and the classpath, runs, writes the output, and reports.
-/

namespace Relabel

/-- Why the program failed. -/
inductive ProgramError where
  | readForced (path : String) (fault : FileFault)
  | parseForced (path : String) (e : ForcedMethod.Error)
  | readMappings (path : String) (fault : FileFault)
  | loadMappings (path : String) (e : Mapping.TableError)
  | files (problem : FileProblem)
  | classpath (path : String) (problem : FileProblem)
  | run (failure : Failure)
  | duplicate (e : DuplicatePath)
  deriving DecidableEq, Repr

namespace ProgramError

/-- The failure in words, outermost first. -/
def chain : ProgramError → List String
  | .readForced path fault => ["Failed to read force-propagation file: " ++ path, fault.message]
  | .parseForced path e => ["Failed to parse force-propagation file: " ++ path,
      (Problem.invalidOption (.forcedMethod e)).message]
  | .readMappings path fault => ["Failed to read mappings: " ++ path, fault.message]
  | .loadMappings path e => ["Failed to load mappings: " ++ path,
      (Problem.invalidMapping e).message]
  | .files problem => problem.chain
  | .classpath path problem => ("Failed to read classpath entry: " ++ path) :: problem.chain
  | .run failure => [failure.message]
  | .duplicate e => [e.message]

/-- A cause behind a mark, its further lines as far to the right. -/
def indented (mark : String) (cause : String) : String :=
  let blanks := String.ofList (List.replicate mark.length ' ')
  mark ++ Text.joinWith ("\n" ++ blanks) (Text.split '\n' cause)

/-- The causes of a failure, numbered if there are several. -/
def causes : List String → String
  | [] => ""
  | [cause] => "\n\nCaused by:\n" ++ indented "    " cause
  | several =>
    let lines := several.zipIdx.map fun (cause, i) => indented s!"    {i}: " cause
    "\n\nCaused by:\n" ++ Text.joinWith "\n" lines

/-- The failure as the program reports it. -/
def text (e : ProgramError) : String :=
  match e.chain with
  | [] => "Error: "
  | outermost :: rest => "Error: " ++ outermost ++ causes rest

end ProgramError

namespace Program

variable {m : Type → Type} [Monad m]

/-- The number of workers that an option stands for, given that of the machine. -/
def workers (cores : Nat) : Threads → Nat
  | .auto => cores
  | .count n => n

/-- Carries an operation on files out. -/
def attempt (error : ε → ProgramError) (act : m (Except ε α)) : ExceptT ProgramError m α := do
  match ← act with
  | .ok a => return a
  | .error e => throw (error e)

/-- Goes on with a result. -/
def check (error : ε → ProgramError) : Except ε α → ExceptT ProgramError m α
  | .ok a => return a
  | .error e => throw (error e)

/-- Reads a file as a text. -/
def readText (files : FileSystem m) (path : String) : m (Except FileFault String) := do
  match ← files.readFile path with
  | .error fault => return .error fault
  | .ok bytes =>
    match Utf8.decode? bytes with
    | some text => return .ok text
    | none => return .error .notUtf8

/-- The options of a run, with the methods that a file lists. -/
def loadOptions (files : FileSystem m) (a : CommandLine.Arguments) :
    ExceptT ProgramError m Options := do
  match a.forceFile with
  | none => return a.options
  | some path =>
    let text ← attempt (.readForced path) (readText files path)
    let forcePropagation ← check (.parseForced path) (ForcedMethod.parseList text)
    return { a.options with forcePropagation }

/-- The new names that a table gives between two namespaces. -/
def loadMappings (bytes : Bytes) (namespaces : String × String) (ignoreFieldDesc : Bool) :
    Except Mapping.TableError Mapping.Renames := do
  let table ← Mapping.Table.parse (Utf8.decodeLossy bytes)
  table.project namespaces.1 namespaces.2 ignoreFieldDesc

/-- The classes of all entries of the classpath, in their order. -/
def loadClasspath (files : FileSystem m) (paths : List String) :
    ExceptT ProgramError m (List LocatedClass) := do
  let sets ← paths.mapM fun path => attempt (.classpath path) (Contents.read files path).run
  return sets.flatMap (·.classes)

/-- Does what the command line asks for. The summary tells nothing of the time it took. -/
def execute (files : FileSystem m) (cores : Nat) (a : CommandLine.Arguments) :
    ExceptT ProgramError m Summary := do
  let options ← loadOptions files a
  let mappingBytes ← attempt (.readMappings a.mappings) (files.readFile a.mappings)
  let mappings ← check (.loadMappings a.mappings)
    (loadMappings mappingBytes a.namespaces options.ignoreFieldDesc)
  let input ← attempt .files (Contents.read files a.input).run
  let classpath ← loadClasspath files a.classpath
  let session : Session := { options }
  let output ← check .run
    (session.run (fun _ => false) (workers cores options.threads) input.classes classpath
      mappings).1
  let entries ← check .duplicate (Entries.ofRun output options.copyMode input.resources)
  attempt .files (entries.write files a.output).run
  return {
    input := a.input
    output := a.output
    mappings := a.mappings
    mappingsDigest := Sha256.digest mappingBytes
    source := a.namespaces.1
    target := a.namespaces.2
    classes := output.classes.length
    resources := input.resources.length
    entries := entries.size
    digest := entries.digest
    stats := output.stats
    durationMs := 0
    warnings := output.warnings }

/-- How the program ends. -/
inductive Outcome where
  | refused (e : CommandLine.UsageError)
  | failed (e : ProgramError)
  | finished (summary : Summary)

/-- The exit code. -/
def Outcome.exitCode : Outcome → Nat
  | .refused .helpRequested => 0
  | .refused _ => 2
  | .failed _ => 1
  | .finished _ => 0

/-- Runs the program on a command line. -/
def run (files : FileSystem m) (cores : Nat) (arguments : List String) : m Outcome := do
  match CommandLine.parse arguments with
  | .error e => return .refused e
  | .ok a =>
    match ← (execute files cores a).run with
    | .ok summary => return .finished summary
    | .error e => return .failed e

end Program

end Relabel
