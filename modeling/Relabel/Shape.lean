import Relabel.Member
import Relabel.Text.Split
import Relabel.ClassFile.Basic

/-!
# Shapes of classes

What a run has to know of a class: its supertypes, its members, and what its code refers to. A
class that cannot be found is stood in for by a public one without members.
-/

namespace Relabel

/-- Where a class comes from. -/
inductive Origin where
  /-- It is to be relabeled. -/
  | input
  /-- It was loaded because an input needs it. -/
  | classpath
  /-- It was not found. -/
  | unresolved
  /-- It was not found and need not be. -/
  | synthetic
  deriving DecidableEq, Repr

/-- The shape of a field or method. -/
structure MemberShape where
  kind : MemberKind
  name : String
  desc : String
  access : Access
  signature : Option String := none
  /-- The method that a bridge calls first. -/
  forwardsTo : Option MemberKey := none
  deriving DecidableEq, Repr

namespace MemberShape

def isMethod (m : MemberShape) : Bool := m.kind = .method

/-- Whether the member creates objects or sets a class up. -/
def isInitializer (m : MemberShape) : Bool := m.name = "<init>" || m.name = "<clinit>"

/-- Whether the member forwards to another. -/
def isBridge (m : MemberShape) : Bool := m.isMethod && m.access.isBridge

/-- The target of a bridge; a field has none. -/
def target? (m : MemberShape) : Option MemberKey :=
  if m.isMethod then m.forwardsTo else none

/-- The member in words. -/
def describe (m : MemberShape) : String :=
  if m.isMethod then m.name ++ m.desc else m.name ++ ":" ++ m.desc

end MemberShape

/-- Something the code of a class refers to. -/
inductive Reference where
  | ofClass (name : String)
  | ofMember (kind : MemberKind) (key : MemberKey)
  deriving DecidableEq, Repr

namespace Reference

/-- A list that references are ordered by: classes before methods before fields, then by names. -/
def sortKey : Reference → List String
  | .ofClass name => ["0", name]
  | .ofMember .method key => ["1", key.owner, key.name, key.desc]
  | .ofMember .field key => ["2", key.owner, key.name, key.desc]

/-- References in order, each once. -/
def sorted (references : List Reference) : List Reference :=
  (references.mergeSort fun a b => Text.precedes a.sortKey b.sortKey).eraseReps

end Reference

/-- The shape of a class. -/
structure ClassShape where
  name : String
  access : Access
  superName : Option String := none
  interfaces : List String := []
  members : Array MemberShape := #[]
  origin : Origin
  references : List Reference := []
  deriving DecidableEq, Repr

namespace ClassShape

/-- A public class of which nothing more is known. -/
def standIn (name : String) (origin : Origin) : ClassShape :=
  { name, access := .onlyPublic, origin }

instance : Inhabited ClassShape := ⟨standIn "" .synthetic⟩

def isInput (c : ClassShape) : Bool := c.origin = .input

def isKnown (c : ClassShape) : Bool := c.origin != .unresolved

/-- The superclass, then the interfaces. -/
def supertypes (c : ClassShape) : List String :=
  c.superName.toList ++ c.interfaces

/-- The place of a member. -/
def memberIndex? (c : ClassShape) (kind : MemberKind) (name desc : String) : Option Nat :=
  c.members.findIdx? fun m => m.kind = kind && m.name = name && m.desc = desc

/-! ### Shapes of class files -/

/-- The shape of a field. -/
def ofField (pool : Pool) (m : MemberInfo) : Except FormatError MemberShape := do
  let name ← m.name pool
  let desc ← m.desc pool
  let signature ← m.signature pool
  return { kind := .field, name, desc, access := m.access, signature }

/-- The method a bridge calls first. -/
def firstForward (pool : Pool) (m : MemberInfo) : Except FormatError (Option MemberKey) := do
  if !m.access.isBridge then return none
  match ← m.code pool with
  | none => return none
  | some code =>
    match ← code.firstCall with
    | none => return none
    | some i =>
      let ref ← pool.memberReference i
      -- A call whose constant is a field leads nowhere.
      if ref.kind = .field then return none
      return some { owner := ref.owner, name := ref.name, desc := ref.desc }

/-- The shape of a method. -/
def ofMethod (pool : Pool) (m : MemberInfo) : Except FormatError MemberShape := do
  -- The body is read before the name, so its problems are reported first.
  let target ← firstForward pool m
  let name ← m.name pool
  let desc ← m.desc pool
  let signature ← m.signature pool
  return { kind := .method, name, desc, access := m.access, signature, forwardsTo := target }

/-- Whether a name is that of an array. -/
def isArray (name : String) : Bool :=
  Text.startsWith name "["

/-- What the constant at an index refers to, in a class with this name. -/
def referenceAt (pool : Pool) (thisName : String) (i : UInt16) :
    Constant → Except FormatError (Option Reference)
  | .ofClass _ => do
    let name ← pool.className i
    return if name = thisName ∨ isArray name then none else some (.ofClass name)
  | .member _ _ _ => do
    let ref ← pool.memberReference i
    let kind := if ref.kind = .field then MemberKind.field else .method
    return if isArray ref.owner then none
      else some (.ofMember kind { owner := ref.owner, name := ref.name, desc := ref.desc })
  | _ => .ok none

/-- What the code of a class refers to, arrays and the class itself apart. -/
def referencesOf (c : ClassFile) (thisName : String) : Except FormatError (List Reference) := do
  let found ← (c.pool.slots.toList.zipIdx.drop 1).mapM fun (constant, i) =>
    referenceAt c.pool thisName i.toUInt16 constant
  return Reference.sorted (found.filterMap id)

/-- The shape of a class. References are collected for inputs only. -/
def ofClassFile (c : ClassFile) (origin : Origin) : Except FormatError ClassShape := do
  let name ← c.name
  let fields ← c.fields.toList.mapM (ofField c.pool)
  let methods ← c.methods.toList.mapM (ofMethod c.pool)
  let references ← if origin = .input then referencesOf c name else pure []
  let superName ← c.superName
  let interfaces ← c.interfaceNames
  return { name, access := c.access, superName, interfaces, members := (fields ++ methods).toArray,
           origin, references }

/-- The shape of the class in a byte string. -/
def decode (data : Bytes) (origin : Origin) : Except FormatError ClassShape := do
  let c ← ClassFile.decode data
  ofClassFile c origin

end ClassShape

/-- The package of a class. -/
def packageName (className : String) : String :=
  match Text.splitLast? '/' className.toList with
  | some (package, _) => String.ofList package
  | none => ""

end Relabel
