import Relabel.Options
import Relabel.ClassFile.Error
import Relabel.Mapping.Table

/-!
# Problems and warnings

What stops a run, and what a run reports without stopping.
-/

namespace Relabel

/-- The phases of a run. -/
inductive Phase where
  | idle
  | building
  | resolving
  | remapping
  | finished
  | failed
  deriving DecidableEq, Repr

/-- The phase in words. -/
def Phase.text : Phase → String
  | .idle => "idle"
  | .building => "building"
  | .resolving => "resolving"
  | .remapping => "remapping"
  | .finished => "finished"
  | .failed => "failed"

/-- What is wrong with the file of a class. -/
inductive ClassFault where
  | format (e : FormatError)
  /-- The file holds a class of another name. -/
  | declares (name : String)
  deriving DecidableEq, Repr

/-- The fault in words. -/
def ClassFault.message : ClassFault → String
  | .format e => e.message
  | .declares name => "entry declares class " ++ name

/-- What is wrong with how a run is asked for. -/
inductive OptionFault where
  | forcedMethod (e : ForcedMethod.Error)
  /-- The run was started before. -/
  | alreadyRun (phase : Phase)
  deriving DecidableEq, Repr

/-- The fault in words. -/
def OptionFault.message : OptionFault → String
  | .forcedMethod e => e.message
  | .alreadyRun phase => "pipeline already " ++ phase.text

/-- What stops a run. -/
inductive Problem where
  | invalidMapping (e : Mapping.TableError)
  /-- A supertype is found nowhere. -/
  | missingClass (name referencedBy : String)
  /-- Two classes or members would get one name. -/
  | conflict (owner first second target : String)
  /-- Linked methods are mapped to different names. -/
  | groupConflict (first second : String)
  | codec (className : String) (fault : ClassFault)
  | invalidOption (fault : OptionFault)
  | cancelled (before : Phase)
  deriving DecidableEq, Repr

/-- The problem in words. -/
def Problem.message : Problem → String
  | .invalidMapping e => s!"invalid mapping (line {e.line}): {e.message}"
  | .missingClass name referencedBy => s!"missing class {name} (supertype of {referencedBy})"
  | .conflict owner first second target =>
    s!"conflict in {owner}: {first} and {second} both map to {target}"
  | .groupConflict first second =>
    s!"linked members {first} and {second} are mapped to different names"
  | .codec className fault => s!"codec error in {className}: {fault.message}"
  | .invalidOption fault => "invalid option: " ++ fault.message
  | .cancelled before => "run cancelled before " ++ before.text

/-- What a run reports without stopping. -/
inductive Warning where
  /-- A class or member of the package can no longer be reached from a class. -/
  | accessViolation (referencing declaring : String) (member : Option String) (fixed : Bool)
  /-- A name was kept because the new one was taken. -/
  | conflictIgnored (owner kept reverted target : String)
  /-- Linked methods are mapped to different names, of which one is used. -/
  | conflictingMappings (member chosen ignored : String)
  /-- A class was given more than once. -/
  | duplicateClass (name source : String)
  deriving DecidableEq, Repr

/-- The warning in words. -/
def Warning.message : Warning → String
  | .accessViolation referencing declaring member fixed =>
    let target := member.elim declaring fun m => declaring ++ "." ++ m
    let action := if fixed then "widened to public" else "left as is"
    s!"package access from {referencing} to {target} breaks after remapping ({action})"
  | .conflictIgnored owner kept reverted target =>
    s!"conflict in {owner} on {target}: kept {kept}, reverted {reverted}"
  | .conflictingMappings member chosen ignored =>
    s!"linked members of {member} map to both {chosen} and {ignored}; using {chosen}"
  | .duplicateClass name source => s!"duplicate class {name} in {source} ignored"

end Relabel
