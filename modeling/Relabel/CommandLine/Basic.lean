import Relabel.Options
import Relabel.Pattern.Parser

/-!
# Arguments of the command line

The options of the command line, their names and values, and what a whole command line asks for.
-/

namespace Relabel.CommandLine

/-- Why arguments are refused, or not acted on. -/
inductive UsageError where
  /-- An argument that must be there is not. -/
  | missingArgument
  /-- There is no option of that name. -/
  | unknownArgument
  /-- A value is missing, or empty, or none of those there are. -/
  | invalidValue
  /-- A value cannot be read. -/
  | unreadableValue
  /-- An option is given twice. -/
  | repeatedOption
  /-- An option takes no value. -/
  | unexpectedValue
  /-- Help is asked for. -/
  | helpRequested
  deriving DecidableEq, Repr

/-- What is wrong, in words. -/
def UsageError.message : UsageError → String
  | .missingArgument => "required arguments were not provided"
  | .unknownArgument => "unexpected argument found"
  | .invalidValue => "invalid or missing value for an argument"
  | .unreadableValue => "invalid value for an argument"
  | .repeatedOption => "an argument cannot be used multiple times"
  | .unexpectedValue => "unexpected value for an argument"
  | .helpRequested => "usage: relabel [options] input output mappings from to [classpath...]"

/-! ### Options and their names -/

/-- The options without a value. -/
inductive Flag where
  | reverse
  | ignoreFieldDesc
  | propagatePrivate
  | removeFrames
  | ignoreConflicts
  | checkPackageAccess
  | fixPackageAccess
  | resolveMissing
  | rebuildSourceFilenames
  | skipLocalVariableMapping
  | renameInvalidLocals
  | inferNameFromSameIndex
  deriving DecidableEq, Repr

/-- The options with a value. -/
inductive Setting where
  | forcePropagation
  | propagateBridges
  | invalidNamePattern
  | copyMode
  | threads
  | logLevel
  deriving DecidableEq, Repr

/-- An option. -/
inductive Switch where
  | help
  | flag (f : Flag)
  | setting (s : Setting)
  deriving DecidableEq, Repr

/-- The options by name, with the letters of those that have one. -/
def switches : List (String × Option Char × Switch) := [
  ("help", 'h', .help),
  ("reverse", 'R', .flag .reverse),
  ("ignore-field-desc", 'i', .flag .ignoreFieldDesc),
  ("force-propagation", 'f', .setting .forcePropagation),
  ("propagate-private", 'p', .flag .propagatePrivate),
  ("propagate-bridges", 'b', .setting .propagateBridges),
  ("remove-frames", none, .flag .removeFrames),
  ("ignore-conflicts", 'I', .flag .ignoreConflicts),
  ("check-package-access", 'C', .flag .checkPackageAccess),
  ("fix-package-access", 'F', .flag .fixPackageAccess),
  ("resolve-missing", 'm', .flag .resolveMissing),
  ("rebuild-source-filenames", 'r', .flag .rebuildSourceFilenames),
  ("skip-local-variable-mapping", 'l', .flag .skipLocalVariableMapping),
  ("rename-invalid-locals", 'L', .flag .renameInvalidLocals),
  ("invalid-lv-name-pattern", none, .setting .invalidNamePattern),
  ("infer-name-from-same-lv-index", none, .flag .inferNameFromSameIndex),
  ("non-class-copy-mode", 'M', .setting .copyMode),
  ("threads", 't', .setting .threads),
  ("log-level", none, .setting .logLevel)]

/-- The option with a name. -/
def long? (name : String) : Option Switch :=
  (switches.find? fun (n, _, _) => n = name).map fun (_, _, s) => s

/-- The option with a letter. -/
def short? (letter : Char) : Option Switch :=
  (switches.find? fun (_, c, _) => c = some letter).map fun (_, _, s) => s

/-! ### What is asked for -/

/-- What the options ask for. The list of forced methods is read later, from `forceFile`. -/
structure Choices where
  reverse : Bool := false
  forceFile : Option String := none
  /-- The text of the pattern among the options. -/
  patternText : Option String := none
  logLevel : String := "warn"
  options : Options := {}

/-- What a command line asks for. -/
structure Arguments extends Choices where
  input : String
  output : String
  mappings : String
  source : String
  target : String
  classpath : List String

/-- The namespaces to go between. -/
def Arguments.namespaces (a : Arguments) : String × String :=
  if a.reverse then (a.target, a.source) else (a.source, a.target)

/-- The choices with a flag. -/
def Choices.withFlag (c : Choices) : Flag → Choices
  | .reverse => { c with reverse := true }
  | .ignoreFieldDesc => { c with options.ignoreFieldDesc := true }
  | .propagatePrivate => { c with options.propagatePrivate := true }
  | .removeFrames => { c with options.removeFrames := true }
  | .ignoreConflicts => { c with options.ignoreConflicts := true }
  | .checkPackageAccess => { c with options.checkPackageAccess := true }
  | .fixPackageAccess => { c with options.fixPackageAccess := true }
  | .resolveMissing => { c with options.resolveMissing := true }
  | .rebuildSourceFilenames => { c with options.rebuildSourceFilenames := true }
  | .skipLocalVariableMapping => { c with options.skipLocalVariableMapping := true }
  | .renameInvalidLocals => { c with options.renameInvalidLocals := true }
  | .inferNameFromSameIndex => { c with options.inferNameFromSameIndex := true }

/-- The policy with a name. -/
def bridgePolicy? : String → Option BridgePolicy
  | "disabled" => some .disabled
  | "enabled" => some .enabled
  | "compatible" => some .compatible
  | _ => none

/-- The copy mode with a name. -/
def copyMode? : String → Option CopyMode
  | "unchanged" => some .unchanged
  | "fixmeta" => some .fixMeta
  | "skipmeta" => some .skipMeta
  | _ => none

/-- The choices with the value of a setting. -/
def Choices.withSetting (c : Choices) (value : String) : Setting → Except UsageError Choices
  | .forcePropagation =>
    if value = "" then .error .invalidValue else .ok { c with forceFile := some value }
  | .propagateBridges =>
    match bridgePolicy? value with
    | some policy => .ok { c with options.propagateBridges := policy }
    | none => .error .invalidValue
  | .invalidNamePattern =>
    match Pattern.parse? value with
    | some pattern =>
      .ok { c with patternText := some value, options.invalidNamePattern := some pattern }
    | none => .error .unreadableValue
  | .copyMode =>
    match copyMode? value with
    | some mode => .ok { c with options.copyMode := mode }
    | none => .error .invalidValue
  | .threads =>
    match Threads.parse? value with
    | some threads => .ok { c with options.threads := threads }
    | none => .error .unreadableValue
  | .logLevel => .ok { c with logLevel := value }

end Relabel.CommandLine
