import Std.Data.TreeMap
import Relabel.Bytes.Sha256
import Relabel.Text.Utf8
import Relabel.Options
import Relabel.Run
import Relabel.Entries.Services

/-!
# Output entries

The entries of an output by path: the relabeled classes, and of the other entries of the input those
that the copy mode lets through. No two entries have one path.
-/

namespace Relabel

/-- An entry of the input that is not a class. -/
structure Resource where
  path : String
  bytes : Bytes
  deriving DecidableEq, Repr

namespace Resource

/-- Bytes with what a function makes of their text, where they are a text. -/
def onText (f : String → String) (bytes : Bytes) : Bytes :=
  match Utf8.decode? bytes with
  | some text => Bytes.ofText (f text)
  | none => bytes

/-- A manifest under the new names. -/
def relabelManifest (mapClass : String → Option String) : Bytes → Bytes :=
  onText fun text => Manifest.render (Manifest.relabel mapClass (Manifest.parse text))

/-- What a path holds below `META-INF/`. -/
def metaPath? (path : String) : Option String :=
  (Text.stripFront? "META-INF/".toList path.toList).map String.ofList

/-- Whether a name below `META-INF/` is that of a signature. -/
def isSignature (name : String) : Bool :=
  !name.toList.contains '/' &&
    [".SF", ".RSA", ".DSA", ".EC"].any (Text.endsWith (Text.upperAscii name))

/-- The class that a path below `META-INF/` gives services for. -/
def service? (name : String) : Option String :=
  match Text.stripFront? "services/".toList name.toList with
  | some rest => if rest.isEmpty || rest.contains '/' then none else some (String.ofList rest)
  | none => none

/-- A resource below `META-INF/` under the new names; signatures are left out. -/
def fixMeta (mapClass : String → Option String) (r : Resource) (name : String) : Option Resource :=
  if isSignature name then none
  else if name = "MANIFEST.MF" then some { r with bytes := relabelManifest mapClass r.bytes }
  else match service? name with
    | some service => some {
        path := "META-INF/services/" ++ Manifest.mapDotted mapClass service
        bytes := onText (Services.relabel mapClass) r.bytes }
    | none => some r

/-- What becomes of a resource. -/
def copy (mode : CopyMode) (mapClass : String → Option String) (r : Resource) : Option Resource :=
  match metaPath? r.path, mode with
  | some _, .skipMeta => none
  | some name, .fixMeta => r.fixMeta mapClass name
  | _, _ => some r

end Resource

/-- Entries by path. -/
structure Entries where
  byPath : Std.TreeMap String Bytes := {}

/-- A path that is taken. -/
structure DuplicatePath where
  path : String
  deriving DecidableEq, Repr

/-- What is wrong, in words. -/
def DuplicatePath.message (e : DuplicatePath) : String :=
  "duplicate output entry " ++ e.path

/-- Steps that add entries. Those added before a failure stay. -/
abbrev EntriesM := EStateM DuplicatePath Entries

namespace Entries

/-- The entries in the order of their paths. -/
def toList (e : Entries) : List (String × Bytes) :=
  e.byPath.toList

/-- The number of entries. -/
def size (e : Entries) : Nat :=
  e.byPath.size

/-- Whether there are no entries. -/
def isEmpty (e : Entries) : Bool :=
  e.byPath.isEmpty

/-- Adds an entry, unless its path is taken. -/
def insert (path : String) (bytes : Bytes) : EntriesM Unit := do
  if (← get).byPath.contains path then throw ⟨path⟩
  modify fun e => { e with byPath := e.byPath.insert path bytes }

/-- Adds classes under their names. -/
def addClasses (classes : List RelabeledClass) : EntriesM Unit :=
  classes.forM fun c => insert c.path c.bytes

/-- Adds what the copy mode makes of resources. -/
def addResources (mode : CopyMode) (mapClass : String → Option String)
    (resources : List Resource) : EntriesM Unit :=
  (resources.filterMap (·.copy mode mapClass)).forM fun r => insert r.path r.bytes

/-- The entries of an output. -/
def ofRun (output : RunResult) (mode : CopyMode) (resources : List Resource) :
    Except DuplicatePath Entries :=
  let act : EntriesM Unit := do
    addClasses output.classes
    addResources mode output.decisions.mapClass resources
  match act {} with
  | .ok _ entries => .ok entries
  | .error e _ => .error e

/-- The bytes that the digest of an entry is taken of: its path, a zero, the number of its bytes and
the bytes themselves. -/
def digestChunk : String × Bytes → Bytes
  | (path, bytes) => Bytes.ofText path ++ 0 :: Bytes.littleEndian 8 bytes.length ++ bytes

/-- The bytes that the digest is taken of. -/
def digestInput (e : Entries) : Bytes :=
  e.toList.flatMap digestChunk

/-- The digest of all entries. -/
def digest (e : Entries) : Bytes :=
  Sha256.digest e.digestInput

end Entries

end Relabel
