import Relabel.Renaming.Annotations
import Relabel.Renaming.Locals

/-!
# Renaming in attributes

Each kind of attribute that names something is patched or written anew; all others stay as they are.
Bodies and record components hold attributes themselves, whose payloads are shorter than the one
around them, so the length of the longest payload bounds the depth.
-/

namespace Relabel.Scope

open Patch

/-- A payload that is nothing but the index of a signature. -/
def patchSignature (s : Scope) (data : Bytes) : PoolM Bytes :=
  match data with
  | [high, low] => do
    let i ← s.mapSignature (Bytes.toUInt16 high low)
    return Bytes.ofUInt16 i
  | _ => throw (.truncated data.length)

/-- A table of local variables with their types mapped. -/
def patchTable (mapType : UInt16 → PoolM UInt16) (data : Bytes) : PoolM Bytes := do
  let table ← MonadExcept.ofExcept (LocalVariable.decodeTable data)
  let table ← table.mapM fun v => do
    let descIndex ← mapType v.descIndex
    pure { v with descIndex }
  MonadExcept.ofExcept (LocalVariable.encodeTable table)

/-- The simple name of an inner class: what follows the class around it and a `$`, or else what
follows the last `/` and the last `$`. -/
def innerName (inner : String) (outer : Option String) : String :=
  match outer.bind fun o => Text.stripFront? (o.toList ++ ['$']) inner.toList with
  | some simple => String.ofList simple
  | none => String.ofList (Text.afterLast '$' (Text.afterLast '/' inner.toList))

/-- The index of the simple name of an inner class after the renaming, given the indices of the
class around it and of its name, and its old name. -/
def innerNameIndex (s : Scope) (inner : String) (outerIndex nameIndex : UInt16) : PoolM UInt16 := do
  -- A class without a name is anonymous and stays so.
  if nameIndex = 0 then return nameIndex
  match s.names.mapClass inner with
  | none => return nameIndex
  | some newInner =>
    let newOuter ← if outerIndex = 0 then pure none else do
      let outer ← s.className outerIndex
      pure (some ((s.names.mapClass outer).getD outer))
    let simple := innerName newInner newOuter
    if simple = (← s.text nameIndex) then return nameIndex
    Pool.internText simple

/-- Patches one entry of a list of inner classes. -/
def patchInnerClass (s : Scope) : Patch Unit := do
  let innerIndex ← copy16
  let outerIndex ← copy16
  let nameIndex ← read Decoder.u16
  let access : Access := ⟨← read Decoder.u16⟩
  let inner ← s.className innerIndex
  let access := if s.names.publishesClass inner then access.withVisibility .everyone else access
  write16 (← s.innerNameIndex inner outerIndex nameIndex)
  write16 access.bits

/-- Patches the method that a class is declared in. -/
def patchEnclosingMethod (s : Scope) : Patch Unit := do
  let classIndex ← copy16
  let methodIndex ← read Decoder.u16
  -- The class is not declared in a method.
  if methodIndex = 0 then write16 methodIndex
  else
    let owner ← s.className classIndex
    let (name, desc) ← s.nameAndType methodIndex
    let newName := s.names.mapMethod { owner, name, desc }
    write16 ((← s.changedNames name desc newName).getD methodIndex)

/-- Writes a record component with its attributes, given how those are renamed. -/
def patchComponent (s : Scope) (nested : Array Attribute → PoolM (Array Attribute)) :
    Patch Unit := do
  let nameIndex ← read Decoder.u16
  let descIndex ← read Decoder.u16
  let name ← s.text nameIndex
  let desc ← s.text descIndex
  write16 (← newIndex (s.names.mapField { owner := s.thisName, name, desc }) nameIndex)
  write16 (← s.mapDescriptor descIndex)
  let attributes ← nested (← read Attribute.decodeList)
  write (← MonadExcept.ofExcept (Attribute.encodeList .componentAttributes attributes))

/-- The payload of a body, given how its attributes are renamed. -/
def patchCode (s : Scope) (nested : Array Attribute → PoolM (Array Attribute)) (data : Bytes) :
    PoolM Bytes := do
  let code ← MonadExcept.ofExcept (Code.decode data)
  let code := { code with attributes := ← nested code.attributes }
  let code ← match s.settings.locals with
    | some naming => s.replaceLocals naming code
    | none => pure code
  MonadExcept.ofExcept code.encode

/-- The new payload of an attribute with a name, given how attributes inside it are renamed. -/
def patchPayload (s : Scope) (nested : Array Attribute → PoolM (Array Attribute)) (name : String)
    (data : Bytes) : PoolM Bytes :=
  match name with
  | "Signature" => s.patchSignature data
  | "Code" => s.patchCode nested data
  | "LocalVariableTable" => patchTable s.mapDescriptor data
  | "LocalVariableTypeTable" => patchTable s.mapSignature data
  | "InnerClasses" => (counted s.patchInnerClass).run data
  | "EnclosingMethod" => s.patchEnclosingMethod.run data
  | "Record" => (counted (s.patchComponent nested)).runFront data
  | "RuntimeVisibleAnnotations" | "RuntimeInvisibleAnnotations" => s.patchAnnotations.run data
  | "RuntimeVisibleParameterAnnotations" | "RuntimeInvisibleParameterAnnotations" =>
    s.patchParameterAnnotations.run data
  | "RuntimeVisibleTypeAnnotations" | "RuntimeInvisibleTypeAnnotations" =>
    s.patchTypeAnnotations.run data
  | "AnnotationDefault" => s.patchDefault.run data
  | _ => pure data

/-- Whether an attribute holds stack map frames. -/
def isFrames (s : Scope) (a : Attribute) : Bool :=
  a.isNamed s.source "StackMapTable" || a.isNamed s.source "StackMap"

/-- Renames in attributes whose payloads are shorter than `depth`. -/
def renameAttributesTo (s : Scope) : Nat → Array Attribute → PoolM (Array Attribute)
  | 0, attributes => pure attributes
  | depth + 1, attributes =>
    -- Names of attributes are read in the source, where their indices stay valid.
    let kept := if s.settings.removeFrames then attributes.filter (!s.isFrames ·) else attributes
    kept.mapM fun a => do
      let name ← s.text a.nameIndex
      let data ← s.patchPayload (s.renameAttributesTo depth) name a.data
      pure { a with data }

/-- Renames in a list of attributes. -/
def renameAttributes (s : Scope) (attributes : Array Attribute) : PoolM (Array Attribute) :=
  s.renameAttributesTo (attributes.foldl (fun n a => max n a.data.length) 0 + 1) attributes

end Relabel.Scope
