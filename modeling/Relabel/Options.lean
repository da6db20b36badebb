import Relabel.Text.Quoted
import Relabel.Text.Split
import Relabel.Pattern

/-!
# Options of a run

What a run may be asked to do beyond renaming, and the texts some of the options are read from.
-/

namespace Relabel

/-! ### Worker threads -/

/-- How many workers a run asks for. -/
inductive Threads where
  | auto
  | count (n : Nat)
  deriving DecidableEq, Repr

namespace Threads

/-- The value of a text of decimal digits, with an optional plus sign, that fits 64 bits. -/
def number? (s : List Char) : Option Nat :=
  let digits := match s with
    | '+' :: rest => rest
    | _ => s
  if digits.isEmpty || !digits.all Char.isDigit then none
  else
    let n := digits.foldl (fun n c => 10 * n + (c.toNat - 48)) 0
    if n < UInt64.size then some n else none

/-- Reads `auto`, in either case, or a positive number. -/
def parse? (text : String) : Option Threads :=
  if Text.lowerAscii text = "auto" then some .auto
  else match number? text.toList with
    | some (n + 1) => some (.count (n + 1))
    | _ => none

/-- What is said of a text that gives no number of threads. -/
def complaint (text : String) : String :=
  "expected a positive thread count or \"auto\", got " ++ Text.quoted text

/-- The text of the option. -/
def text : Threads → String
  | .auto => "auto"
  | .count n => toString n

end Threads

/-! ### Methods whose names always propagate -/

/-- A method, in whatever class, whose new name goes to all methods linked with it. -/
structure ForcedMethod where
  name : String
  desc : String
  deriving DecidableEq, Repr

/-- An entry that is not a method name followed by a descriptor. -/
structure ForcedMethod.Error where
  entry : String
  deriving DecidableEq, Repr

/-- What is wrong with the entry, in words. -/
def ForcedMethod.Error.message (e : ForcedMethod.Error) : String :=
  "force-propagation entry " ++ Text.quoted e.entry ++
    " must be a method name followed by its descriptor"

namespace ForcedMethod

/-- Cuts an entry into name and descriptor: at the first white space, else before the first
parenthesis. -/
def cut (s : List Char) : List Char × List Char :=
  match s.span (fun c => !Text.isBlank c) with
  | (name, _ :: desc) => (name, Text.trimChars desc)
  | (_, []) => s.span (· ≠ '(')

/-- Reads `name(desc)` or `name desc`. -/
def parse (text : String) : Except Error ForcedMethod :=
  let s := Text.trimChars text.toList
  let (name, desc) := cut s
  if name.isEmpty || desc.head? != some '(' then .error ⟨String.ofList s⟩
  else .ok { name := String.ofList name, desc := String.ofList desc }

/-- The order by name, then by descriptor. -/
def le (a b : ForcedMethod) : Bool :=
  a.name < b.name || (a.name = b.name && a.desc ≤ b.desc)

/-- The entries in order, each once. -/
def sorted (entries : List ForcedMethod) : List ForcedMethod :=
  entries.eraseDups.mergeSort le

/-- Reads a list with one entry per line; blank lines and lines that start with `#` do not count. -/
def parseList (text : String) : Except Error (List ForcedMethod) := do
  let lines := (Text.lines text).map Text.trim
  let entries ← (lines.filter fun line => line != "" && !Text.startsWith line "#").mapM parse
  return sorted entries

end ForcedMethod

/-! ### All options -/

/-- Which bridge methods share a name with the method they forward to. -/
inductive BridgePolicy where
  /-- None: a bridge is linked only as any other method is. -/
  | disabled
  /-- All of them. -/
  | enabled
  /-- Those that override a method of a supertype which their target, erased, overrides too. -/
  | compatible
  deriving DecidableEq, Repr

/-- What becomes of the entries that are not classes. -/
inductive CopyMode where
  /-- They are copied. -/
  | unchanged
  /-- Signature files and digests of the manifest are left out, and class names follow. -/
  | fixMeta
  /-- Nothing under `META-INF/` is copied. -/
  | skipMeta
  deriving DecidableEq, Repr

/-- The options of a run. -/
structure Options where
  removeFrames : Bool := false
  ignoreConflicts : Bool := false
  resolveMissing : Bool := false
  checkPackageAccess : Bool := false
  fixPackageAccess : Bool := false
  rebuildSourceFilenames : Bool := false
  skipLocalVariableMapping : Bool := false
  renameInvalidLocals : Bool := false
  /-- Local variable names it is found in are unusable. -/
  invalidNamePattern : Option Pattern := none
  inferNameFromSameIndex : Bool := false
  ignoreFieldDesc : Bool := false
  propagatePrivate : Bool := false
  propagateBridges : BridgePolicy := .disabled
  forcePropagation : List ForcedMethod := []
  threads : Threads := .auto
  copyMode : CopyMode := .fixMeta

namespace Options

/-- Whether references across packages are looked at. -/
def examinesAccess (o : Options) : Bool :=
  o.checkPackageAccess || o.fixPackageAccess

/-- Whether a method is linked with others whatever its access. -/
def forces (o : Options) (name desc : String) : Bool :=
  o.forcePropagation.contains { name, desc }

end Options

end Relabel
