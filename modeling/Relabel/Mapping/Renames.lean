import Std.Data.HashMap
import Relabel.Member
import Relabel.Descriptor
import Relabel.Signature
import Relabel.Mapping.Nested
import Relabel.Mapping.Table

/-!
# Renames between two namespaces

The projection of a mapping table onto a pair of namespaces, keyed by names of the first. Where a
key has several rows the last one counts, except for fields asked for without their descriptor,
where the first one does. A row with an empty name in one of the two namespaces has no effect.
-/

namespace Relabel.Mapping

/-- The new names between one pair of namespaces. -/
structure Renames where
  classes : Std.HashMap String String := {}
  fields : Std.HashMap MemberKey String := {}
  /-- Fields by owner and name alone. -/
  fieldsByName : Std.HashMap (String × String) String := {}
  methods : Std.HashMap MemberKey String := {}
  /-- Whether a field may be found without its descriptor. -/
  ignoreFieldDesc : Bool := false

/-! ### Projection -/

/-- The column of a namespace. -/
def Table.column (table : Table) (namespaceName : String) : Except TableError Nat :=
  match table.namespaces.idxOf? namespaceName with
  | some i => .ok i
  | none => .error (.undeclared namespaceName table.namespaces)

/-- The rows of classes by their name in the first namespace. -/
def Table.primary (table : Table) : Std.HashMap String (List String) :=
  .ofList (table.classes.filterMap fun row => row.head?.map (·, row))

/-- The new name of a class of the first namespace in the namespace of a column. -/
def classInColumn (primary : Std.HashMap String (List String)) (column : Nat) :
    String → Option String :=
  Nested.rename fun name =>
    match primary[name]? with
    | some row =>
      let new := row.getD column ""
      if new = "" then none else some (Nested.answer name new)
    | none => none

/-- The names a row gives in two namespaces, unless one is empty. -/
def namePair (source target : Nat) (names : List String) : Option (String × String) :=
  let old := names.getD source ""
  let new := names.getD target ""
  if old = "" ∨ new = "" then none else some (old, new)

/-- The key of a member row and the new name, with owner and descriptor carried by `into`. -/
def memberEntry (into : Descriptor.ClassMap) (source target : Nat) (row : MemberNames) :
    Option (MemberKey × String) :=
  (namePair source target row.names).map fun (old, new) =>
    let owner := (into row.owner).getD row.owner
    ({ owner, name := old, desc := Descriptor.rename into row.desc }, new)

/-- The projection of a table onto two of its namespaces. -/
def Table.project (table : Table) (source target : String) (ignoreFieldDesc : Bool) :
    Except TableError Renames := do
  let source ← table.column source
  let target ← table.column target
  let into := classInColumn table.primary source
  let fields := table.fields.filterMap (memberEntry into source target)
  return {
    classes := .ofList (table.classes.filterMap (namePair source target))
    fields := .ofList fields
    fieldsByName :=
      fields.foldl (fun map (key, new) => map.insertIfNew (key.owner, key.name) new) {}
    methods := .ofList (table.methods.filterMap (memberEntry into source target))
    ignoreFieldDesc }

/-! ### Answers -/

namespace Renames

/-- The new name of a class. A nested class without a row follows the class around it; a row that
maps a class to itself keeps its name. -/
def mapClass (r : Renames) : String → Option String :=
  Nested.rename fun name => r.classes[name]?.map (Nested.answer name)

/-- The name of a class afterwards. -/
def className (r : Renames) (name : String) : String :=
  (r.mapClass name).getD name

/-- The new name of a field. -/
def fieldName (r : Renames) (key : MemberKey) : Option String :=
  match r.fields[key]? with
  | some new => some new
  | none => if r.ignoreFieldDesc then r.fieldsByName[(key.owner, key.name)]? else none

/-- The new name of a method. -/
def methodName (r : Renames) (key : MemberKey) : Option String :=
  r.methods[key]?

/-- The new name of a member of either kind. -/
def memberName (r : Renames) : MemberKind → MemberKey → Option String
  | .field, key => r.fieldName key
  | .method, key => r.methodName key

/-- A descriptor with its class names mapped. -/
def descriptor (r : Renames) (desc : String) : String :=
  Descriptor.rename r.mapClass desc

/-- A signature with its class names mapped. -/
def signature (r : Renames) (text : String) : String :=
  Signature.rename r.mapClass text

/-- The classes that are renamed by a row of their own, in the order of their old names. -/
def explicitRenames (r : Renames) : List (String × String) :=
  (r.classes.toList.filter fun (old, new) => old != new).mergeSort fun a b => a.1 ≤ b.1

/-- Whether there is no row at all. -/
def isEmpty (r : Renames) : Bool :=
  r.classes.isEmpty && r.fields.isEmpty && r.methods.isEmpty

end Renames

end Relabel.Mapping
