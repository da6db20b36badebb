import Std.Data.HashMap
import Std.Data.TreeMap
import Relabel.Shape
import Relabel.Problem

/-!
# The catalog of classes

The classes of a run by name. Inputs are registered first; classes of the classpath are loaded only
where a registered class needs them, as supertypes of any class or as owners of members that an
input refers to. Loading goes in waves: a wave loads all that is due, and what it loads makes up the
next.
-/

namespace Relabel

/-- A class file and where it was found. -/
structure LocatedClass where
  /-- The name its path gives it. -/
  name : String
  location : String
  bytes : Bytes
  deriving DecidableEq, Repr

/-- How a problem names a class file. -/
def LocatedClass.label (s : LocatedClass) : String :=
  s.name ++ " (" ++ s.location ++ ")"

/-- Whether a class belongs to the platform: such a class need not be found. -/
def belongsToPlatform (name : String) : Bool :=
  Text.startsWith name "java/"

/-- The classes of a run by name, and the classpath. -/
structure Catalog where
  shapes : Std.TreeMap String ClassShape := {}
  classpath : Std.HashMap String LocatedClass := {}

namespace Catalog

/-- A catalog without classes. Of class files with one name the first counts. -/
def ofClasspath (found : List LocatedClass) : Catalog where
  classpath := found.foldl (fun map c => map.insertIfNew c.name c) {}

/-- The class with a name. -/
def get? (c : Catalog) (name : String) : Option ClassShape :=
  c.shapes[name]?

/-- Whether there is a class with a name. -/
def contains (c : Catalog) (name : String) : Bool :=
  c.shapes.contains name

/-- The number of classes. -/
def size (c : Catalog) : Nat :=
  c.shapes.size

/-- The classes in the order of their names. -/
def classes (c : Catalog) : List ClassShape :=
  c.shapes.toList.map (·.2)

/-- Registers a class under its name, whatever was there. -/
def put (c : Catalog) (shape : ClassShape) : Catalog :=
  { c with shapes := c.shapes.insert shape.name shape }

/-- What registering a class gives: the class under its name, whether that is the one given, and the
catalog afterwards. -/
structure Registered where
  shape : ClassShape
  isNew : Bool
  catalog : Catalog

/-- Registers a class unless its name is taken, as one indivisible step. -/
def commit (c : Catalog) (shape : ClassShape) : Registered :=
  match c.get? shape.name with
  | some existing => ⟨existing, false, c⟩
  | none => ⟨shape, true, c.put shape⟩

/-- Registers a class unless its name is taken: a look first, then the step that registers. -/
def register (c : Catalog) (shape : ClassShape) : Registered :=
  match c.get? shape.name with
  | some existing => ⟨existing, false, c⟩
  | none => c.commit shape

/-- The look before the step that registers makes no difference to the result. -/
theorem register_eq_commit (c : Catalog) (shape : ClassShape) :
    c.register shape = c.commit shape := by
  unfold register
  split
  · simp_all [commit]
  · rfl

/-! ### Loading -/

/-- Why a class is due. -/
structure Request where
  /-- Whether it must exist, as a supertype must. -/
  required : Bool
  /-- The first class that asked for it. -/
  referencedBy : String
  deriving DecidableEq, Repr

/-- The classes that are due, by name. -/
abbrev Requests := Std.TreeMap String Request

/-- What came of loading a class. -/
inductive FetchResult where
  | loaded (shape : ClassShape)
  | missing
  | skipped
  | failed (problem : Problem)

/-- What came of loading all classes. -/
structure LoadReport where
  loaded : Nat := 0
  /-- Supertypes that were not found, with the class that asked first. -/
  unresolved : Std.TreeMap String String := {}
  problems : List Problem := []

/-- Makes a class due unless it is an array or registered. -/
def request (c : Catalog) (referencedBy : String) (required : Bool) (due : Requests)
    (name : String) : Requests :=
  if ClassShape.isArray name || c.contains name then due
  else match due[name]? with
    -- Once required, a class stays so; the class that asked first is kept.
    | some p => due.insert name { p with required := p.required || required }
    | none => due.insert name { required, referencedBy }

/-- The owners of the members a class refers to. -/
def memberOwners (shape : ClassShape) : List String :=
  shape.references.filterMap fun
    | .ofMember _ key => some key.owner
    | .ofClass _ => none

/-- Makes due what a class needs. -/
def requestFor (c : Catalog) (due : Requests) (shape : ClassShape) : Requests :=
  let due := shape.supertypes.foldl (c.request shape.name true) due
  (memberOwners shape).foldl (c.request shape.name false) due

/-- Loads a class that is due. -/
def fetch (c : Catalog) (name : String) (required : Bool) : FetchResult × Catalog :=
  if c.contains name then (.skipped, c)
  else match c.classpath[name]? with
    | none =>
      -- The stand-in keeps later waves from asking again.
      if required then (.missing, (c.register (.standIn name .unresolved)).catalog)
      else (.skipped, c)
    | some found =>
      let label := name ++ " (" ++ found.location ++ ")"
      match ClassShape.decode found.bytes .classpath with
      | .error e => (.failed (.codec label (.format e)), c)
      | .ok shape =>
        -- A file may hold another class than its path says.
        if shape.name = name then
          let i := c.register shape
          (if i.isNew then .loaded i.shape else .skipped, i.catalog)
        else (.failed (.codec label (.declares shape.name)), c)

/-- Loads all classes of a wave. -/
def fetchWave (c : Catalog) : List (String × Request) →
    List (String × Request × FetchResult) × Catalog
  | [] => ([], c)
  | (name, request) :: rest =>
    let (outcome, c) := c.fetch name request.required
    let (outcomes, c) := c.fetchWave rest
    ((name, request, outcome) :: outcomes, c)

/-- Takes note of what came of one class, in the report and in what is due next. -/
def note (c : Catalog) : LoadReport × Requests → String × Request × FetchResult →
    LoadReport × Requests
  | (report, next), (_, _, .loaded shape) =>
    ({ report with loaded := report.loaded + 1 }, c.requestFor next shape)
  | (report, next), (name, request, .missing) =>
    ({ report with unresolved := report.unresolved.insertIfNew name request.referencedBy }, next)
  | (report, next), (_, _, .skipped) => (report, next)
  | (report, next), (_, _, .failed problem) =>
    ({ report with problems := report.problems ++ [problem] }, next)

/-- Loads wave after wave until nothing is due. Each wave but the last loads a class of the
classpath, so their number bounds that of the waves. -/
def fetchFrom : Nat → Catalog → LoadReport → Requests → LoadReport × Catalog
  | 0, c, report, _ => (report, c)
  | fuel + 1, c, report, due =>
    if due.isEmpty then (report, c)
    else
      let (outcomes, c) := c.fetchWave due.toList
      let (report, next) := outcomes.foldl c.note (report, {})
      fetchFrom fuel c report next

/-- Loads all that the registered classes need. -/
def loadNeeded (c : Catalog) : LoadReport × Catalog :=
  fetchFrom (c.classpath.size + 2) c {} (c.classes.foldl c.requestFor {})

/-- Puts stand-ins in the place of missing classes where that is allowed, and reports the others. -/
def fillGaps (c : Catalog) (unresolved : Std.TreeMap String String) (resolveMissing : Bool) :
    List Problem × Catalog :=
  let (problems, c) := unresolved.toList.foldl (fun (problems, c) (name, referencedBy) =>
    if resolveMissing || belongsToPlatform name then
      (problems, c.put (.standIn name .synthetic))
    else (.missingClass name referencedBy :: problems, c)) ([], c)
  (problems.reverse, c)

end Catalog

end Relabel
