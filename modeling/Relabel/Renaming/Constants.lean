import Relabel.Renaming.Scope

/-!
# Renaming in the constant pool

Classes, member references, method types and dynamic constants are pointed at their new names. A
call site made by the lambda metafactory carries the name of the interface method it implements: the
interface is the result of the call site and the descriptor its first static argument.
-/

namespace Relabel

/-- A bootstrap method with its static arguments, as indices. -/
structure BootstrapMethod where
  handle : UInt16
  args : Array UInt16
  deriving DecidableEq, Repr

/-- Reads a bootstrap method. -/
def BootstrapMethod.decode : Decoder BootstrapMethod := do
  let handle ← Decoder.u16
  let args ← Decoder.counted Decoder.u16
  return { handle, args }

/-- The bootstrap methods of a class. -/
def ClassFile.bootstrapMethods (c : ClassFile) : Except FormatError (Array BootstrapMethod) :=
  match Attribute.find? c.attributes c.pool "BootstrapMethods" with
  | some a => (Decoder.counted BootstrapMethod.decode).decode a.data
  | none => .ok #[]

namespace Scope

/-- The class that makes the objects of lambda expressions. -/
def lambdaMetafactory : String := "java/lang/invoke/LambdaMetafactory"

/-- The descriptor that the first static argument gives, where it is a method type. -/
def samDesc? (s : Scope) (method : BootstrapMethod) : Except FormatError (Option String) :=
  match method.args[0]?.bind s.source.get? with
  | some (.methodType desc) => some <$> s.source.utf8 desc
  | _ => .ok none

/-- The new name of a call site, where it implements a method of an interface. -/
def callSiteName (s : Scope) (method : Option BootstrapMethod) (name desc : String) :
    Except FormatError (Option String) :=
  match method with
  | none => .ok none
  | some method =>
    match s.source.get? method.handle with
    | some (.methodHandle _ reference) => do
      let factory ← s.source.memberReference reference
      if factory.owner ≠ lambdaMetafactory then return none
      -- The interface is what the call site results in.
      match (Descriptor.method? desc).bind fun m => Descriptor.className? m.result with
      | none => return none
      | some owner =>
        match ← s.samDesc? method with
        | none => return none
        | some desc => return s.names.mapMethod { owner, name, desc }
    | _ => .ok none

/-- What takes the place of the constant at an index, where it changes. -/
def mapConstant (s : Scope) (methods : Array BootstrapMethod) (i : UInt16) :
    Constant → PoolM (Option Constant)
  | .ofClass name => do
    let old ← s.text name
    match s.names.mapReference old with
    | some new => return some (.ofClass (← Pool.internText new))
    | none => return none
  | .member _ owner _ => do
    -- Names and kind are read from the source, since the owner may have changed already. A slot
    -- past the last index shares its number with an earlier one, which is then what is read.
    let ref ← MonadExcept.ofExcept (s.source.memberReference i)
    let key : MemberKey := { owner := ref.owner, name := ref.name, desc := ref.desc }
    let newName := match ref.kind with
      | .field => s.names.mapField key
      | _ => s.names.mapMethod key
    return (← s.changedNames ref.name ref.desc newName).map (.member ref.kind owner)
  | .methodType desc => return some (.methodType (← s.mapDescriptor desc))
  | .invokeDynamic bootstrap names => do
    let (name, desc) ← s.nameAndType names
    let newName ← MonadExcept.ofExcept (s.callSiteName methods[bootstrap.toNat]? name desc)
    return (← s.changedNames name desc newName).map (.invokeDynamic bootstrap)
  | .dynamic bootstrap names => do
    let (name, desc) ← s.nameAndType names
    return (← s.changedNames name desc none).map (.dynamic bootstrap)
  | _ => return none

/-- Points the constants of the pool at their new names, in the order of their slots. -/
def mapPool (s : Scope) (methods : Array BootstrapMethod) : PoolM Unit :=
  -- Entries appended on the way are new names, and are not gone through.
  (s.source.slots.toList.zipIdx.drop 1).forM fun (constant, i) => do
    match ← s.mapConstant methods i.toUInt16 constant with
    | some new => Pool.setM i.toUInt16 new
    | none => pure ()

end Scope

end Relabel
