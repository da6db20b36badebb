import Std.Data.HashMap
import Relabel.Shape

/-!
# The class graph

Classes in the order of their names, with the supertypes of each found once and for all. The
ancestors of a class are all its strict supertypes in the graph: first the chain of superclasses,
then the others breadth first.
-/

namespace Relabel

/-- The place of a class in the graph. -/
abbrev ClassPlace := Nat

/-- The place of a member: its class, and its place there. -/
structure MemberPlace where
  owner : ClassPlace
  index : Nat
  deriving DecidableEq, Hashable, Repr

instance : Inhabited MemberShape := ⟨{ kind := .field, name := "", desc := "", access := ⟨0⟩ }⟩

/-- A class graph. -/
structure Graph where
  classes : Array ClassShape
  index : Std.HashMap String ClassPlace
  ancestors : Array (Array ClassPlace)
  subclasses : Array (Array ClassPlace)
  /-- The number of members before those of each class, and that of all. -/
  offsets : Array Nat

namespace Graph

/-! ### Ancestors -/

/-- The classes by name; of several with one name, the last counts. -/
def indexOf (classes : Array ClassShape) : Std.HashMap String ClassPlace :=
  .ofList (classes.toList.zipIdx.map fun (c, i) => (c.name, i))

/-- The direct supertypes that a class has in the graph, the interfaces before the superclass. -/
def parents (classes : Array ClassShape) (index : Std.HashMap String ClassPlace) (id : ClassPlace) :
    List ClassPlace :=
  match classes[id]? with
  | some c => (c.interfaces ++ c.superName.toList).filterMap (index[·]?)
  | none => []

/-- The superclass of a class, where it is in the graph. -/
def superOf? (classes : Array ClassShape) (index : Std.HashMap String ClassPlace)
    (id : ClassPlace) : Option ClassPlace :=
  (classes[id]?.bind (·.superName)).bind (index[·]?)

/-- Follows superclasses from `current` until they end or repeat. -/
def superChain (superOf? : ClassPlace → Option ClassPlace) (start : ClassPlace) :
    Nat → ClassPlace → Array ClassPlace → Array ClassPlace
  | 0, _, chain => chain
  | fuel + 1, current, chain =>
    match superOf? current with
    | some s =>
      -- A class that is its own superclass, at whatever distance, ends the chain.
      if s = start || chain.contains s then chain
      else superChain superOf? start fuel s (chain.push s)
    | none => chain

/-- Adds a class that is not there yet. -/
def addNew (start : ClassPlace) (found : Array ClassPlace) (id : ClassPlace) : Array ClassPlace :=
  if id = start || found.contains id then found else found.push id

/-- Looks at the classes found one after the other, beginning with the `head`-th, where `start` has
the number 0, and adds their direct supertypes. -/
def closeUnder (parents : ClassPlace → List ClassPlace) (start : ClassPlace) :
    Nat → Nat → Array ClassPlace → Array ClassPlace
  | 0, _, found => found
  | fuel + 1, head, found =>
    match if head = 0 then some start else found[head - 1]? with
    | some id => closeUnder parents start fuel (head + 1) ((parents id).foldl (addNew start) found)
    | none => found

/-- The strict supertypes of a class. There are fewer than classes, which bounds both searches. -/
def ancestorsFrom (classes : Array ClassShape) (index : Std.HashMap String ClassPlace)
    (id : ClassPlace) : Array ClassPlace :=
  -- Superclasses come before all interfaces, in whatever order the search would find them.
  let chain := superChain (superOf? classes index) id classes.size id #[]
  closeUnder (parents classes index) id (classes.size + 1) 0 chain

/-! ### The graph of a list of classes -/

/-- The direct subclasses of each class. -/
def collectSubclasses (classes : Array ClassShape) (index : Std.HashMap String ClassPlace) :
    Array (Array ClassPlace) :=
  classes.toList.zipIdx.foldl (fun lists (c, i) =>
    (c.supertypes.filterMap (index[·]?)).foldl (fun lists id => lists.modify id (·.push i)) lists)
    (Array.replicate classes.size #[])

/-- The number of members before those of each class, and that of all. -/
def collectOffsets (classes : Array ClassShape) : Array Nat :=
  classes.foldl (fun offsets c => offsets.push (offsets.back?.getD 0 + c.members.size)) #[0]

/-- The graph of classes. -/
def ofShapes (shapes : List ClassShape) : Graph :=
  let classes := (shapes.mergeSort fun a b => a.name ≤ b.name).toArray
  let index := indexOf classes
  { classes
    index
    ancestors := (Array.range classes.size).map (ancestorsFrom classes index)
    subclasses := collectSubclasses classes index
    offsets := collectOffsets classes }

/-! ### Questions -/

/-- The number of classes. -/
def size (g : Graph) : Nat := g.classes.size

/-- All classes in order. -/
def places (g : Graph) : List ClassPlace := List.range g.size

/-- The class at a place. -/
def classAt (g : Graph) (id : ClassPlace) : ClassShape := g.classes.getD id default

/-- The place of the class with a name. -/
def place? (g : Graph) (name : String) : Option ClassPlace := g.index[name]?

/-- The class with a name. -/
def classNamed? (g : Graph) (name : String) : Option ClassShape := (g.place? name).map g.classAt

/-- The strict supertypes of a class. -/
def ancestorsOf (g : Graph) (id : ClassPlace) : List ClassPlace := (g.ancestors.getD id #[]).toList

/-- A class and its strict supertypes. -/
def selfAndAncestors (g : Graph) (id : ClassPlace) : List ClassPlace := id :: g.ancestorsOf id

/-- The direct subclasses of a class. -/
def subclassesOf (g : Graph) (id : ClassPlace) : List ClassPlace :=
  (g.subclasses.getD id #[]).toList

/-- The member at a place. -/
def memberAt (g : Graph) (id : MemberPlace) : MemberShape :=
  (g.classAt id.owner).members.getD id.index default

/-- The members of a class. -/
def membersOf (g : Graph) (id : ClassPlace) : List MemberPlace :=
  (List.range (g.classAt id).members.size).map fun index => { owner := id, index }

/-- All members in order. -/
def allMembers (g : Graph) : List MemberPlace :=
  g.places.flatMap g.membersOf

/-- The number of all members. -/
def memberTotal (g : Graph) : Nat := g.offsets.getD g.size 0

/-- The number of a member among all. -/
def number (g : Graph) (id : MemberPlace) : Nat := g.offsets.getD id.owner 0 + id.index

/-- The key a class looks its own member up by. -/
def keyOf (g : Graph) (id : MemberPlace) : MemberKey :=
  let m := g.memberAt id
  { owner := (g.classAt id.owner).name, name := m.name, desc := m.desc }

/-- The member that a reference leads to: in the owner itself, else in its superclasses, else in its
interfaces. -/
def lookUpMember (g : Graph) (kind : MemberKind) (key : MemberKey) : Option MemberPlace := do
  let owner ← g.place? key.owner
  (g.selfAndAncestors owner).findSome? fun id =>
    ((g.classAt id).memberIndex? kind key.name key.desc).map fun index => { owner := id, index }

end Graph

end Relabel
