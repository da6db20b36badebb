import Relabel.Problem
import Relabel.Decisions.Basic

/-!
# Drafts of decisions

A draft is a set of decisions that can still change, with the warnings it gave rise to. It starts
with no name decided; `takeNames` takes the names from the mappings, and later steps take names
back or make things public.
-/

namespace Relabel

/-- Decisions that can still change. -/
structure Draft where
  decisions : Decisions
  /-- The warnings so far, in reverse. -/
  reported : List Warning := []

namespace Draft

/-- A draft with no name decided. -/
def start (graph : Graph) (mappings : Mapping.Renames) (options : Options) : Draft :=
  let linkage := Linkage.ofGraph graph options
  { decisions := {
      graph, linkage, mappings
      groupNames := Array.replicate linkage.groups.size none
      fieldNames := Array.replicate graph.memberTotal none } }

/-- Adds a warning. -/
def warn (d : Draft) (w : Warning) : Draft :=
  { d with reported := w :: d.reported }

/-- The warnings in order. -/
def warnings (d : Draft) : List Warning :=
  d.reported.reverse

/-! ### Names from the mappings -/

/-- The members of a group that the mappings name, with those names. -/
def mappedMembers (r : Decisions) (group : LinkGroup) : List (MemberPlace × String) :=
  group.members.toList.filterMap fun id =>
    (r.mappings.methodName (r.graph.keyOf id)).map fun new => (id, new)

/-- The name of a group, that of its first mapped member, unless that keeps its own; and the first
member that is mapped to another name, where there is one. -/
def chooseName (r : Decisions) (group : LinkGroup) :
    Option String × Option ((MemberPlace × String) × (MemberPlace × String)) :=
  match mappedMembers r group with
  | [] => (none, none)
  | (first, name) :: rest =>
    -- The first mapped member decides, also where it is mapped to its own name.
    (if name = (r.graph.memberAt first).name then none else some name,
      (rest.find? fun (_, other) => other != name).map fun second => ((first, name), second))

/-- The new name of a member of a class, where it is a field. -/
def fieldName? (r : Decisions) (id : MemberPlace) : Option String :=
  let m := r.graph.memberAt id
  if m.isMethod then none
  else (r.mappings.fieldName (r.graph.keyOf id)).filter (· != m.name)

/-- The conflicts of groups whose members are mapped to different names. -/
def nameConflicts (r : Decisions) : List ((MemberPlace × String) × (MemberPlace × String)) :=
  r.linkage.groups.toList.filterMap fun group => (chooseName r group).2

/-- The names of all groups. -/
def chosenNames (r : Decisions) : Array (Option String) :=
  r.linkage.groups.map fun group => (chooseName r group).1

/-- The names of all fields: those there were, but for the fields that the mappings name. -/
def chosenFields (r : Decisions) : Array (Option String) :=
  r.graph.allMembers.foldl (fun names id =>
    match fieldName? r id with
    | some new => names.setIfInBounds (r.graph.number id) (some new)
    | none => names) r.fieldNames

/-- Takes the names of groups and fields from the mappings. Where members of one group are mapped to
different names, that is a problem, or a warning where conflicts are ignored. -/
def takeNames (d : Draft) (options : Options) : List Problem × Draft :=
  let r := d.decisions
  let conflicts := nameConflicts r
  let d := { d with decisions :=
    { r with groupNames := chosenNames r, fieldNames := chosenFields r } }
  if options.ignoreConflicts then
    ([], conflicts.foldl (fun d ((first, name), (_, other)) =>
      d.warn (.conflictingMappings (r.describeMember first) name other)) d)
  else
    (conflicts.map fun ((first, name), (second, other)) =>
      .groupConflict (r.describeMember first ++ " -> " ++ name)
        (r.describeMember second ++ " -> " ++ other), d)

/-! ### Changes -/

/-- Whether a member has a new name. -/
def hasNewName (d : Draft) (id : MemberPlace) : Bool :=
  (d.decisions.newName id).isSome

/-- Takes the new name of a member back; that of a method, from its whole group. -/
def keepMember (d : Draft) (id : MemberPlace) : Draft :=
  let r := d.decisions
  if (r.graph.memberAt id).isMethod then
    match r.linkage.groupNumber? r.graph id with
    | some group =>
      { d with decisions := { r with groupNames := r.groupNames.setIfInBounds group none } }
    | none => d
  else
    { d with decisions :=
      { r with fieldNames := r.fieldNames.setIfInBounds (r.graph.number id) none } }

/-- Takes the new name of a class back. -/
def keepClass (d : Draft) (name : String) : Draft :=
  let r := d.decisions
  { d with decisions := { r with keptClasses := r.keptClasses.insert name } }

/-- The members that become public with a member: those of its group, or it alone. -/
def publishedWith (r : Decisions) (id : MemberPlace) : List MemberPlace :=
  match r.linkage.group? r.graph id with
  | some group => if (r.graph.memberAt id).isMethod then group.members.toList else [id]
  | none => [id]

/-- Makes a member public; a method, with all methods of its group in inputs. -/
def publishMember (d : Draft) (id : MemberPlace) : Draft :=
  let r := d.decisions
  -- Only inputs are written, so only they can change their access.
  let inputs := (publishedWith r id).filter fun m => (r.graph.classAt m.owner).isInput
  { d with decisions :=
    { r with publishedMembers := r.publishedMembers.insertMany (inputs.map r.graph.number) } }

/-- Makes a class public. -/
def publishClass (d : Draft) (name : String) : Draft :=
  let r := d.decisions
  { d with decisions := { r with publishedClasses := r.publishedClasses.insert name } }

end Draft

end Relabel
