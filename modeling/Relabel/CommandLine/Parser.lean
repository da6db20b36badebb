import Relabel.CommandLine.Basic

/-!
# Reading the command line

Arguments are read one after the other. Options may stand anywhere before a lone `--`; their letters
may be bundled, and a value may follow as an argument of its own, behind an equals sign, or, after a
letter, directly. What was read last stays open until the next argument is known to be good, and
only then is its value looked at: an unknown option is reported before a bad value in front of it.
-/

namespace Relabel.CommandLine

/-- What was read last, and whose value has not been looked at. -/
inductive Unsettled where
  | nothing
  /-- A setting and its value, where that has been read. -/
  | setting (s : Setting) (value : Option String)
  | positional (value : String)
  /-- Entries of the classpath with nothing between them. -/
  | classpath (values : List String)
  deriving DecidableEq, Repr

/-- What has been read. -/
structure State where
  choices : Choices := {}
  /-- The options given so far. -/
  given : List Switch := []
  /-- The arguments that are no options. -/
  positionals : List String := []
  pending : Unsettled := .nothing
  /-- Whether a lone `--` has been read. -/
  onlyPositionals : Bool := false

namespace State

/-- Takes note of an option, which must be new. -/
def give (s : State) (option : Switch) : Except UsageError State :=
  if s.given.contains option then .error .repeatedOption
  else .ok { s with given := option :: s.given }

/-- Takes note of a setting and its value. -/
def giveSetting (s : State) (setting : Setting) (value : String) : Except UsageError State := do
  let s ← s.give (.setting setting)
  let choices ← s.choices.withSetting value setting
  return { s with choices }

/-- Whether the argument after those read so far may be empty: only the namespaces may. -/
def allowsEmpty (s : State) : Bool :=
  s.positionals.length = 3 || s.positionals.length = 4

/-- Looks at the value of what was read last. -/
def settle (s : State) : Except UsageError State :=
  let rest := { s with pending := .nothing }
  match s.pending with
  | .nothing => .ok rest
  | .setting _ none => .error .invalidValue
  | .setting setting (some value) => rest.giveSetting setting value
  | .positional value =>
    if value = "" && !s.allowsEmpty then .error .invalidValue
    else .ok { rest with positionals := s.positionals ++ [value] }
  | .classpath values =>
    if values.contains "" then .error .invalidValue
    else .ok { rest with positionals := s.positionals ++ values }

/-- Reads an option without a value. -/
def readFlag (s : State) (flag : Flag) : Except UsageError State := do
  let s ← s.settle
  let s ← s.give (.flag flag)
  return { s with choices := s.choices.withFlag flag }

/-- Reads a setting with the value that is attached to it, or opens it for one to come. -/
def readSetting (s : State) (setting : Setting) (attached : Option String) :
    Except UsageError State := do
  let s ← s.settle
  match attached with
  | some value => s.giveSetting setting value
  | none => return { s with pending := .setting setting none }

/-- Reads a request for help. -/
def readHelp (s : State) : Except UsageError State := do
  let _ ← s.settle
  throw .helpRequested

/-- Reads what follows two dashes. -/
def readLong (s : State) (text : List Char) : Except UsageError State :=
  let (name, attached) := match Text.splitFirst? '=' text with
    | some (name, value) => (name, some (String.ofList value))
    | none => (text, none)
  match long? (String.ofList name), attached with
  | none, _ => .error .unknownArgument
  | some (.setting setting), _ => s.readSetting setting attached
  | some _, some _ => .error .unexpectedValue
  | some .help, none => s.readHelp
  | some (.flag flag), none => s.readFlag flag

/-- The value that the rest of a bundle of letters gives. -/
def attachedValue : List Char → Option String
  | [] => none
  | '=' :: value => some (String.ofList value)
  | value => some (String.ofList value)

/-- Reads what follows a single dash. -/
def readShorts (s : State) : List Char → Except UsageError State
  | [] => .ok s
  | letter :: rest =>
    match short? letter with
    | none => .error .unknownArgument
    | some .help => s.readHelp
    | some (.setting setting) => s.readSetting setting (attachedValue rest)
    | some (.flag flag) => do
      let s ← s.readFlag flag
      s.readShorts rest

/-- Reads an argument that is no option. -/
def readPositional (s : State) (value : String) : Except UsageError State :=
  match s.pending with
  | .classpath values => .ok { s with pending := .classpath (values ++ [value]) }
  | _ => do
    let s ← s.settle
    if s.positionals.length < 5 then return { s with pending := .positional value }
    else return { s with pending := .classpath [value] }

/-- Reads an argument that is no option, or the value of the setting before it. -/
def readValue (s : State) (value : String) : Except UsageError State :=
  match s.pending with
  | .setting setting none => .ok { s with pending := .setting setting (some value) }
  | _ => s.readPositional value

/-- Reads an argument. -/
def read (s : State) (argument : String) : Except UsageError State :=
  if s.onlyPositionals then s.readPositional argument
  else match argument.toList with
    | ['-', '-'] => .ok { s with onlyPositionals := true }
    | '-' :: '-' :: text => s.readLong text
    | '-' :: letter :: rest => s.readShorts (letter :: rest)
    | _ => s.readValue argument

/-- What has been asked for at the end. -/
def finish (s : State) : Except UsageError Arguments := do
  let s ← s.settle
  match s.positionals with
  | input :: output :: mappings :: source :: target :: classpath =>
    return { s.choices with input, output, mappings, source, target, classpath }
  | _ => throw .missingArgument

end State

/-- Reads a command line, without the name of the program. -/
def parse (arguments : List String) : Except UsageError Arguments := do
  let s ← arguments.foldlM State.read {}
  s.finish

end Relabel.CommandLine
