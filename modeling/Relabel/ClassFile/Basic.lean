import Relabel.Access
import Relabel.ClassFile.Code

/-!
# Class files

A class file with its members, what can be asked of it, its binary form, and how one is put
together. Reading accepts a class only if its own name can be found, and nothing may follow it.
-/

namespace Relabel

/-- A field or method as a class file holds it. -/
structure MemberInfo where
  access : Access
  nameIndex : UInt16
  descIndex : UInt16
  attributes : Array Attribute := #[]
  deriving DecidableEq, Repr

namespace MemberInfo

/-- The member's name. -/
def name (m : MemberInfo) (pool : Pool) : Except FormatError String :=
  pool.utf8 m.nameIndex

/-- The member's descriptor. -/
def desc (m : MemberInfo) (pool : Pool) : Except FormatError String :=
  pool.utf8 m.descIndex

/-- The member's generic signature. -/
def signature (m : MemberInfo) (pool : Pool) : Except FormatError (Option String) :=
  Attribute.text? m.attributes pool "Signature"

/-- The body of a method that has one. -/
def code (m : MemberInfo) (pool : Pool) : Except FormatError (Option Code) :=
  match Attribute.find? m.attributes pool "Code" with
  | some a => some <$> Code.decode a.data
  | none => .ok none

/-- Reads a member. -/
def decode : Decoder MemberInfo := do
  let access ← Decoder.u16
  let nameIndex ← Decoder.u16
  let descIndex ← Decoder.u16
  let attributes ← Attribute.decodeList
  return { access := ⟨access⟩, nameIndex, descIndex, attributes }

/-- The binary form of a member. -/
def encode (m : MemberInfo) : Except FormatError Bytes := do
  let attributes ← Attribute.encodeList .attributes m.attributes
  return Bytes.ofUInt16 m.access.bits ++ Bytes.ofUInt16 m.nameIndex ++ Bytes.ofUInt16 m.descIndex ++
    attributes

/-- The binary form of a list of members. -/
def encodeList (members : Array MemberInfo) : Except FormatError Bytes := do
  let count ← encodeCount .members members.size
  let forms ← encodeAll encode members
  return count ++ forms

end MemberInfo

/-- A class file. -/
structure ClassFile where
  minorVersion : UInt16 := 0
  majorVersion : UInt16 := 52
  pool : Pool
  access : Access
  thisClass : UInt16
  superClass : UInt16
  interfaces : Array UInt16 := #[]
  fields : Array MemberInfo := #[]
  methods : Array MemberInfo := #[]
  attributes : Array Attribute := #[]

namespace ClassFile

/-- Whether two classes have the same contents, whatever was searched for in their pools. -/
def sameContents (a b : ClassFile) : Bool :=
  a.minorVersion = b.minorVersion && a.majorVersion = b.majorVersion &&
    a.pool.slots = b.pool.slots && a.access = b.access && a.thisClass = b.thisClass &&
    a.superClass = b.superClass && a.interfaces = b.interfaces && a.fields = b.fields &&
    a.methods = b.methods && a.attributes = b.attributes

/-! ### Questions -/

/-- The name of the class. -/
def name (c : ClassFile) : Except FormatError String :=
  c.pool.className c.thisClass

/-- The name of the superclass. -/
def superName (c : ClassFile) : Except FormatError (Option String) :=
  if c.superClass = 0 then .ok none else some <$> c.pool.className c.superClass

/-- The names of the interfaces. -/
def interfaceNames (c : ClassFile) : Except FormatError (List String) :=
  c.interfaces.toList.mapM c.pool.className

/-- The generic signature of the class. -/
def signature (c : ClassFile) : Except FormatError (Option String) :=
  Attribute.text? c.attributes c.pool "Signature"

/-- The name of the file the class was compiled from. -/
def sourceFile (c : ClassFile) : Except FormatError (Option String) :=
  Attribute.text? c.attributes c.pool "SourceFile"

/-! ### Binary form -/

/-- The number every class file starts with. -/
def magic : UInt32 := 0xcafebabe

/-- Reads a class up to its end, whatever follows. -/
def decoder : Decoder ClassFile := do
  let found ← Decoder.u32
  if found ≠ magic then throw (.badMagic found)
  let minorVersion ← Decoder.u16
  let majorVersion ← Decoder.u16
  let pool ← Pool.decode
  let access ← Decoder.u16
  let thisClass ← Decoder.u16
  let superClass ← Decoder.u16
  let interfaces ← Decoder.counted Decoder.u16
  let fields ← Decoder.counted MemberInfo.decode
  let methods ← Decoder.counted MemberInfo.decode
  let attributes ← Attribute.decodeList
  return { minorVersion, majorVersion, pool, access := ⟨access⟩, thisClass, superClass, interfaces,
           fields, methods, attributes }

/-- Reads a class file. -/
def decode (data : Bytes) : Except FormatError ClassFile :=
  match decoder { rest := data } with
  | .error e _ => .error e
  | .ok c input =>
    -- A class whose own name cannot be read is refused here, not when it is used.
    if input.rest.isEmpty then do
      let _ ← c.name
      return c
    else .error (.trailingData input.rest.length)

/-- The binary form of a class. -/
def encode (c : ClassFile) : Except FormatError Bytes := do
  let pool ← c.pool.encode
  let count ← encodeCount .interfaces c.interfaces.size
  let fields ← MemberInfo.encodeList c.fields
  let methods ← MemberInfo.encodeList c.methods
  let attributes ← Attribute.encodeList .attributes c.attributes
  return Bytes.ofUInt32 magic ++ Bytes.ofUInt16 c.minorVersion ++ Bytes.ofUInt16 c.majorVersion ++
    pool ++ Bytes.ofUInt16 c.access.bits ++ Bytes.ofUInt16 c.thisClass ++
    Bytes.ofUInt16 c.superClass ++ count ++ c.interfaces.toList.flatMap Bytes.ofUInt16 ++ fields ++
    methods ++ attributes

/-! ### Putting a class together -/

/-- A class of the version 52.0 without members. -/
def create (name : String) (superName : Option String) (access : Access) :
    Except FormatError ClassFile :=
  let indices : PoolM (UInt16 × UInt16) := do
    let thisClass ← Pool.internClass name
    let superClass ← match superName with
      | some superName => Pool.internClass superName
      | none => pure 0
    return (thisClass, superClass)
  match indices {} with
  | .ok (thisClass, superClass) pool => .ok { pool, access, thisClass, superClass }
  | .error e _ => .error e

/-- A change to a class. Where it fails, the pool keeps what was appended before. -/
abbrev Build := EStateM FormatError ClassFile

/-- Changes the pool of a class. -/
def onPool (act : PoolM α) : Build α := fun c =>
  let ⟨minorVersion, majorVersion, pool, access, thisClass, superClass, interfaces, fields, methods,
    attributes⟩ := c
  match act pool with
  | .ok a pool => .ok a { minorVersion, majorVersion, pool, access, thisClass, superClass,
                          interfaces, fields, methods, attributes }
  | .error e pool => .error e { minorVersion, majorVersion, pool, access, thisClass, superClass,
                                interfaces, fields, methods, attributes }

/-- Adds an interface. -/
def addInterface (name : String) : Build Unit := do
  let i ← onPool (Pool.internClass name)
  modify fun c => { c with interfaces := c.interfaces.push i }

/-- A member with its name and descriptor in the pool. -/
def makeMember (access : Access) (name desc : String) : PoolM MemberInfo := do
  let nameIndex ← Pool.internText name
  let descIndex ← Pool.internText desc
  return { access, nameIndex, descIndex }

/-- An attribute with its name in the pool. -/
def makeAttribute (name : String) (data : Bytes) : PoolM Attribute := do
  let nameIndex ← Pool.internText name
  return { nameIndex, data }

/-- An attribute whose payload is the index of a text. -/
def makeTextAttribute (name value : String) : PoolM Attribute := do
  let i ← Pool.internText value
  makeAttribute name (Bytes.ofUInt16 i)

/-- Adds a field and gives its place. -/
def addField (access : Access) (name desc : String) : Build Nat := do
  let member ← onPool (makeMember access name desc)
  modifyGet fun c => (c.fields.size, { c with fields := c.fields.push member })

/-- Adds a method and gives its place. -/
def addMethod (access : Access) (name desc : String) (code : Option Code) : Build Nat := do
  let member ← onPool (makeMember access name desc)
  let member ← match code with
    | some code => do
      let data ← MonadExcept.ofExcept code.encode
      let body ← onPool (makeAttribute "Code" data)
      pure { member with attributes := #[body] }
    | none => pure member
  modifyGet fun c => (c.methods.size, { c with methods := c.methods.push member })

end ClassFile

end Relabel
