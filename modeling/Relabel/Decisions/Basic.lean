import Std.Data.HashSet
import Relabel.Renaming
import Relabel.Mapping.Renames
import Relabel.Graph.Linkage

/-!
# Decisions on names

Which name each group of methods and each field gets, which classes keep their names against the
mappings, and what becomes public. The decisions answer all questions of a renaming: a member that
is declared in the graph has the name decided there, and any other the name that the mappings give.
-/

namespace Relabel

/-- The decisions on a class graph. -/
structure Decisions where
  graph : Graph
  linkage : Linkage
  mappings : Mapping.Renames
  /-- The new name of each group. -/
  groupNames : Array (Option String)
  /-- The new name of each field, by its number among all members. -/
  fieldNames : Array (Option String)
  keptClasses : Std.HashSet String := {}
  publishedMembers : Std.HashSet Nat := {}
  publishedClasses : Std.HashSet String := {}

namespace Decisions

/-- The new name of a class. -/
def mapClass (r : Decisions) (name : String) : Option String :=
  if r.keptClasses.contains name then none
  else (r.mappings.mapClass name).filter (· != name)

/-- The name of a class afterwards. -/
def className (r : Decisions) (name : String) : String :=
  (r.mapClass name).getD name

/-- The new name of a member of the graph, `none` where it keeps its own. -/
def newName (r : Decisions) (id : MemberPlace) : Option String :=
  if (r.graph.memberAt id).isMethod then
    (r.linkage.groupNumber? r.graph id).bind fun group => r.groupNames.getD group none
  else r.fieldNames.getD (r.graph.number id) none

/-- The name and descriptor of a member afterwards. -/
def memberAfter (r : Decisions) (id : MemberPlace) : String × String :=
  let m := r.graph.memberAt id
  ((r.newName id).getD m.name, Descriptor.rename r.mapClass m.desc)

/-- A member with its class, in words. -/
def describeMember (r : Decisions) (id : MemberPlace) : String :=
  (r.graph.classAt id.owner).name ++ "." ++ (r.graph.memberAt id).describe

/-- Whether a member becomes public. -/
def isPublished (r : Decisions) (id : MemberPlace) : Bool :=
  r.publishedMembers.contains (r.graph.number id)

/-- The number of inputs with a new name. -/
def renamedInputs (r : Decisions) : Nat :=
  r.graph.classes.toList.countP fun c => c.isInput && (r.mapClass c.name).isSome

/-! ### As a renaming -/

/-- The new name of a member, looked up in the graph first. -/
def lookUp (r : Decisions) (kind : MemberKind) (key : MemberKey) : Option String :=
  match r.graph.lookUpMember kind key with
  | some id => r.newName id
  | none => (r.mappings.memberName kind key).filter (· != key.name)

/-- The new name of a field. -/
def mapField (r : Decisions) (key : MemberKey) : Option String :=
  r.lookUp .field key

/-- The new name of a method. Constructors have none. -/
def mapMethod (r : Decisions) (key : MemberKey) : Option String :=
  if Text.startsWith key.name "<" then none else r.lookUp .method key

/-- The new name of an element of the annotation with a descriptor: that of the method without
parameters. -/
def mapElement (r : Decisions) (desc name : String) : Option String := do
  let owner ← Descriptor.className? desc
  let c ← r.graph.classNamed? owner
  let element ← c.members.find? fun m => m.isMethod && m.name = name && Text.startsWith m.desc "()"
  r.mapMethod { owner, name, desc := element.desc }

/-- Whether a member becomes public. -/
def publishesMember (r : Decisions) (kind : MemberKind) (key : MemberKey) : Bool :=
  match r.graph.place? key.owner with
  | none => false
  | some owner =>
    ((r.graph.classAt owner).memberIndex? kind key.name key.desc).any fun index =>
      r.isPublished { owner, index }

/-- The decisions as a renaming. -/
def toRenaming (r : Decisions) : Renaming where
  mapClass := r.mapClass
  mapField := r.mapField
  mapMethod := r.mapMethod
  mapElement := r.mapElement
  publishesMember := r.publishesMember
  publishesClass := r.publishedClasses.contains

end Decisions

end Relabel
