import Relabel.Catalog
import Relabel.Renaming.Class
import Relabel.Decisions.OfGraph

/-!
# Runs

A run takes classes through three phases. Building registers the inputs and loads what they need of
the classpath; resolving decides on all names; remapping carries the decisions through every input.
A phase is finished for all classes before its problems are looked at, so a failure lists every
class that is broken. A session runs once.
-/

namespace Relabel

/-! ### Results -/

/-- A relabeled class. -/
structure RelabeledClass where
  name : String
  bytes : Bytes
  deriving DecidableEq, Repr

/-- The path of the entry that holds a class. -/
def RelabeledClass.path (c : RelabeledClass) : String :=
  c.name ++ ".class"

/-- What a run counted. -/
structure Stats where
  inputClasses : Nat
  classpathClasses : Nat
  stubClasses : Nat
  renamedClasses : Nat
  propagationGroups : Nat
  threads : Nat
  deriving DecidableEq, Repr

/-- What a run gives. -/
structure RunResult where
  /-- In the order of their names. -/
  classes : List RelabeledClass
  decisions : Decisions
  warnings : List Warning
  stats : Stats

/-- Why a run failed, and in which phase. -/
structure Failure where
  phase : Phase
  problems : List Problem
  deriving DecidableEq, Repr

/-- The failure in words. -/
def Failure.message (f : Failure) : String :=
  f.problems.foldl (fun text problem => text ++ "\n  - " ++ problem.message)
    s!"remapping failed during {f.phase.text} with {f.problems.length} error(s)"

/-! ### Building -/

/-- What became of the inputs. -/
structure Enrolled where
  catalog : Catalog
  /-- The first source of each class. -/
  accepted : List LocatedClass := []
  /-- Sources of a class that another source gave before. -/
  duplicates : List LocatedClass := []
  problems : List Problem := []

/-- A problem with the bytes of a source. -/
def LocatedClass.problem (s : LocatedClass) (e : FormatError) : Problem :=
  .codec s.label (.format e)

/-- Registers the inputs one after the other. -/
def enrol (c : Catalog) : List LocatedClass → Enrolled
  | [] => { catalog := c }
  | source :: rest =>
    match ClassShape.decode source.bytes .input with
    | .error e =>
      -- A broken source does not stop the others from being registered.
      let a := enrol c rest
      { a with problems := source.problem e :: a.problems }
    | .ok shape =>
      -- The first source of a class counts, whatever a later one holds.
      let i := c.register shape
      let a := enrol i.catalog rest
      if i.isNew then { a with accepted := source :: a.accepted }
      else { a with duplicates := source :: a.duplicates }

/-- The warning on a source that is not used. -/
def LocatedClass.duplicateWarning (s : LocatedClass) : Warning :=
  .duplicateClass s.name s.location

/-! ### Remapping -/

/-- The part of the options that concerns single classes. -/
def Options.relabelSettings (o : Options) : RelabelSettings where
  removeFrames := o.removeFrames
  rebuildSourceFilenames := o.rebuildSourceFilenames
  locals :=
    if o.renameInvalidLocals && !o.skipLocalVariableMapping then
      some { pattern := o.invalidNamePattern, inferFromSameIndex := o.inferNameFromSameIndex }
    else none

/-- The bytes of a class under its new names. -/
def relabelBytes (names : Renaming) (settings : RelabelSettings) (data : Bytes) :
    Except FormatError Bytes := do
  let c ← ClassFile.decode data
  let c ← c.relabel names settings
  c.encode

/-- A source under its new names. -/
def LocatedClass.relabel (r : Decisions) (settings : RelabelSettings) (s : LocatedClass) :
    Except Problem RelabeledClass :=
  match relabelBytes r.toRenaming settings s.bytes with
  | .ok bytes => .ok { name := r.className s.name, bytes }
  | .error e => .error (s.problem e)

/-- The results of a list of attempts, or all their problems. -/
def collect : List (Except Problem α) → Except (List Problem) (List α)
  | [] => .ok []
  | .ok a :: rest =>
    match collect rest with
    | .ok results => .ok (a :: results)
    | .error problems => .error problems
  | .error problem :: rest =>
    match collect rest with
    | .ok _ => .error [problem]
    | .error problems => .error (problem :: problems)

/-- All sources under their new names, in the order of those. -/
def relabelAll (r : Decisions) (settings : RelabelSettings) (sources : List LocatedClass) :
    Except (List Problem) (List RelabeledClass) := do
  let classes ← collect (sources.map (·.relabel r settings))
  return classes.mergeSort fun a b => a.name ≤ b.name

/-! ### Sessions -/

/-- A run that is asked for, under way or done. -/
structure Session where
  options : Options
  phase : Phase := .idle

namespace Session

/-- Fails in a phase if there are problems. -/
def failIf (phase : Phase) (problems : List Problem) : Except Failure Unit :=
  if problems.isEmpty then .ok () else .error { phase, problems }

/-- Goes on from one phase to the next, unless the run has been cancelled by then. -/
def advance (cancelled : Phase → Bool) (current next : Phase) : Except Failure Unit :=
  if cancelled next then .error { phase := current, problems := [.cancelled next] } else .ok ()

/-- Takes classes through all phases. `cancelled` tells whether the run has been cancelled by the
time a phase is to begin, and `threads` is the number of workers to report. -/
def runPhases (options : Options) (cancelled : Phase → Bool) (threads : Nat)
    (inputs classpath : List LocatedClass) (mappings : Mapping.Renames) :
    Except Failure RunResult := do
  advance cancelled .idle .building
  let enrolled := enrol (.ofClasspath classpath) inputs
  let (reached, catalog) := enrolled.catalog.loadNeeded
  failIf .building (enrolled.problems ++ reached.problems)
  advance cancelled .building .resolving
  -- Missing supertypes are looked at only now, after all problems with sources.
  let (missing, catalog) := catalog.fillGaps reached.unresolved options.resolveMissing
  failIf .resolving missing
  let graph := Graph.ofShapes catalog.classes
  let (decisions, warnings) ← (Decisions.ofGraph graph mappings options).mapError
    ({ phase := .resolving, problems := · })
  advance cancelled .resolving .remapping
  let classes ← (relabelAll decisions options.relabelSettings enrolled.accepted).mapError
    ({ phase := .remapping, problems := · })
  return {
    classes
    decisions
    warnings := enrolled.duplicates.map (·.duplicateWarning) ++ warnings
    stats := {
      inputClasses := enrolled.accepted.length
      classpathClasses := reached.loaded
      stubClasses := graph.classes.toList.countP (·.origin = .synthetic)
      renamedClasses := decisions.renamedInputs
      propagationGroups := decisions.linkage.groups.size
      threads } }

/-- Runs a session that has not run yet, and leaves it finished or failed. -/
def run (s : Session) (cancelled : Phase → Bool) (threads : Nat)
    (inputs classpath : List LocatedClass) (mappings : Mapping.Renames) :
    Except Failure RunResult × Session :=
  if s.phase ≠ .idle then
    -- A session that ran before is left as it is.
    (.error { phase := s.phase, problems := [.invalidOption (.alreadyRun s.phase)] }, s)
  else
    let result := runPhases s.options cancelled threads inputs classpath mappings
    (result, { s with phase := if result.isOk then .finished else .failed })

end Session

end Relabel
