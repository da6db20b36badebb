import Relabel.Descriptor
import Relabel.Options
import Relabel.Graph.Basic
import Relabel.Graph.UnionFind

/-!
# Linked methods

Methods that override one another must get one name. A group is a set of methods linked by edges:
between methods with one name and descriptor in a class and its supertypes, and, as the policy says,
between bridges and between a bridge and the method it forwards to. Fields and initializers belong
to no group.
-/

namespace Relabel

/-- Methods that get one name. -/
structure LinkGroup where
  /-- Those of inputs first, then by class and by place. -/
  members : Array MemberPlace := #[]
  forced : Bool := false
  hasPrivate : Bool := false
  hasBridge : Bool := false
  deriving DecidableEq, Repr

/-- All groups, and the group of each member by its number. -/
structure Linkage where
  groups : Array LinkGroup := #[]
  groupOf : Array (Option Nat) := #[]
  deriving Repr

namespace Linkage

/-- Whether a member takes part in overriding. -/
def takesPart (options : Options) (m : MemberShape) : Bool :=
  m.isMethod && !m.isInitializer &&
    -- What is forced takes part even if it is static or private.
    (options.forces m.name m.desc ||
      (!m.access.isStatic && (!m.access.isPrivate || options.propagatePrivate)))

/-- Notes the first member with a key, and an edge from it to every later one. -/
def noteKey (state : Std.HashMap (String × String) Nat × List (Nat × Nat))
    (entry : (String × String) × Nat) : Std.HashMap (String × String) Nat × List (Nat × Nat) :=
  let (first, edges) := state
  let (key, number) := entry
  match first[key]? with
  | some other => (first, (other, number) :: edges)
  | none => (first.insert key number, edges)

/-- An edge from the first member with each key to every later one, as numbers of members. -/
def edgesByKey (keyed : List ((String × String) × Nat)) : List (Nat × Nat) :=
  (keyed.foldl noteKey ({}, [])).2.reverse

/-- The members of a list that take part, with their names and numbers. -/
def keyed (g : Graph) (options : Options) (members : List MemberPlace) :
    List ((String × String) × Nat) :=
  members.filterMap fun id =>
    let m := g.memberAt id
    if takesPart options m then some ((m.name, m.desc), g.number id) else none

/-- The edges between methods that override one another, seen from one class. -/
def overrideEdges (g : Graph) (options : Options) (id : ClassPlace) : List (Nat × Nat) :=
  edgesByKey (keyed g options ((g.selfAndAncestors id).flatMap g.membersOf))

/-- The bridges that take part. -/
def bridges (g : Graph) (options : Options) : List MemberPlace :=
  g.allMembers.filter fun id =>
    let m := g.memberAt id
    m.isBridge && takesPart options m

/-- Whether a strict supertype of a class declares a method. -/
def isOverride (g : Graph) (id : ClassPlace) (m : MemberShape) : Bool :=
  (g.ancestorsOf id).any fun a => ((g.classAt a).memberIndex? .method m.name m.desc).isSome

/-- Whether a bridge is linked with its target. -/
def joinsTarget (g : Graph) (options : Options) (bridge target : MemberPlace) : Bool :=
  match options.propagateBridges with
  | .disabled => false
  | .enabled => true
  | .compatible =>
    let m := g.memberAt bridge
    Descriptor.erasureCompatible m.desc (g.memberAt target).desc &&
      isOverride g bridge.owner m

/-- The edge from a bridge to its target. -/
def targetEdge? (g : Graph) (options : Options) (bridge : MemberPlace) : Option (Nat × Nat) := do
  let key ← (g.memberAt bridge).target?
  let target ← g.lookUpMember .method key
  -- A bridge may call itself first, or a method that takes no part.
  if target ≠ bridge ∧ takesPart options (g.memberAt target) ∧ joinsTarget g options bridge target
  then some (g.number bridge, g.number target) else none

/-- The edges that the policy on bridges adds. -/
def bridgeEdges (g : Graph) (options : Options) : List (Nat × Nat) :=
  match options.propagateBridges with
  | .disabled => []
  | .enabled => edgesByKey (keyed g options (bridges g options)) ++
      (bridges g options).filterMap (targetEdge? g options)
  | .compatible => (bridges g options).filterMap (targetEdge? g options)

/-- All edges. -/
def edges (g : Graph) (options : Options) : List (Nat × Nat) :=
  g.places.flatMap (overrideEdges g options) ++ bridgeEdges g options

/-- The methods that belong to groups, those of inputs first. -/
def groupedMembers (g : Graph) : List MemberPlace :=
  let methods := g.allMembers.filter fun id =>
    let m := g.memberAt id
    m.isMethod && !m.isInitializer
  methods.filter (fun id => (g.classAt id.owner).isInput) ++
    methods.filter (fun id => !(g.classAt id.owner).isInput)

/-- Puts a member into the group of its root, which is made where there is none. -/
def place (g : Graph) (options : Options) (sets : UnionFind)
    (state : Linkage × Std.HashMap Nat Nat) (id : MemberPlace) :
    Linkage × Std.HashMap Nat Nat :=
  let (l, byRoot) := state
  let m := g.memberAt id
  let root := sets.root (g.number id)
  -- A root met for the first time opens the next group.
  let group := byRoot[root]?.getD l.groups.size
  let groups := if group < l.groups.size then l.groups else l.groups.push {}
  let groups := groups.modify group fun entry =>
    { members := entry.members.push id
      forced := entry.forced || options.forces m.name m.desc
      hasPrivate := entry.hasPrivate || m.access.isPrivate
      hasBridge := entry.hasBridge || m.isBridge }
  let groupOf := l.groupOf.setIfInBounds (g.number id) (some group)
  ({ groups, groupOf }, byRoot.insert root group)

/-- The groups of a graph. -/
def ofGraph (g : Graph) (options : Options) : Linkage :=
  let sets := (UnionFind.singletons g.memberTotal).unionAll (edges g options)
  ((groupedMembers g).foldl (place g options sets)
    ({ groupOf := Array.replicate g.memberTotal none }, {})).1

/-- The number of the group of a member. -/
def groupNumber? (l : Linkage) (g : Graph) (id : MemberPlace) : Option Nat :=
  l.groupOf.getD (g.number id) none

/-- The group of a member. -/
def group? (l : Linkage) (g : Graph) (id : MemberPlace) : Option LinkGroup :=
  (l.groupNumber? g id).bind (l.groups[·]?)

end Linkage

end Relabel
