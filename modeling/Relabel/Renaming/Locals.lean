import Std.Data.HashMap
import Relabel.Renaming.Scope

/-!
# Renaming local variables

Unusable names of a method's local variables are replaced, and parameters that have no entry from
the start of the method get one. The table of generic types takes the new names over for the entries
with the same range and slot.
-/

namespace Relabel

/-- The first slot and the new type of each parameter. An instance method has its receiver in slot
0. -/
def Renaming.slotsOfParameters (r : Renaming) (access : Access) (desc : String) :
    List (UInt16 × String) :=
  match Descriptor.method? desc with
  | none => []
  | some m =>
    let first : UInt16 := if access.isStatic then 0 else 1
    let (_, slots) := m.params.foldl (fun (slot, slots) param =>
      (slot + (Descriptor.slotCount param).toUInt16, (slot, r.mapDescriptor param) :: slots))
      (first, [])
    slots.reverse

namespace Scope

/-- The parameters without an entry from the start of the method. -/
def unnamedParams (s : Scope) (table : Array LocalVariable) : List (UInt16 × String) :=
  s.params.filter fun (slot, _) => !table.any fun v => v.index = slot && v.startPc = 0

/-- The entries of a table with their names and types. -/
def localSlots (table : Array LocalVariable) : PoolM (List LocalEntry) := do
  let pool ← get
  MonadExcept.ofExcept <| table.toList.mapM fun v => do
    let name ← pool.utf8 v.nameIndex
    let desc ← pool.utf8 v.descIndex
    return { name, desc, index := v.index }

/-- The names given to entries, by their range and slot. -/
abbrev GivenNames := Std.HashMap (UInt16 × UInt16 × UInt16) UInt16

/-- The range and slot of an entry. -/
def rangeOf (v : LocalVariable) : UInt16 × UInt16 × UInt16 :=
  (v.startPc, v.length, v.index)

/-- Gives new names to the entries of a table, after those already done. -/
def nameEntries (done : Array LocalVariable) (given : GivenNames) :
    List (LocalVariable × Option String) → PoolM (Array LocalVariable × GivenNames)
  | [] => pure (done, given)
  | (v, none) :: rest => nameEntries (done.push v) given rest
  | (v, some name) :: rest => do
    let nameIndex ← Pool.internText name
    let v := { v with nameIndex }
    nameEntries (done.push v) (given.insert (rangeOf v) nameIndex) rest

/-- Adds entries for parameters over the whole length of a method. -/
def addParams (length : UInt16) (table : Array LocalVariable) :
    List ((UInt16 × String) × Option String) → PoolM (Array LocalVariable)
  | [] => pure table
  | (_, none) :: rest => addParams length table rest
  | ((slot, desc), some name) :: rest => do
    let nameIndex ← Pool.internText name
    let descIndex ← Pool.internText desc
    addParams length (table.push { startPc := 0, length, nameIndex, descIndex, index := slot }) rest

/-- The payload of an attribute of a body. -/
def payload (attributes : Array Attribute) (i : Nat) : Bytes :=
  attributes[i]?.elim [] (·.data)

/-- Replaces the payload of an attribute of a body. -/
def setPayload (attributes : Array Attribute) (i : Nat) (data : Bytes) : Array Attribute :=
  attributes.modify i fun a => { a with data }

/-- The table of a body of some length under its new names, and the names given; nothing where no
name is replaced. -/
def renameTable (s : Scope) (naming : LocalPolicy) (length : Nat) (table : Array LocalVariable) :
    PoolM (Option (Array LocalVariable × GivenNames)) := do
  let unnamed := s.unnamedParams table
  let slots ← localSlots table
  -- The entries come first and the parameters without one behind them.
  let renames := naming.rename
    (slots ++ unnamed.map fun (slot, desc) => { name := "", desc, index := slot })
  if renames.all Option.isNone then return none
  let (table, given) ← nameEntries #[] {} (table.toList.zip renames)
  -- The entry of a parameter covers the whole method.
  if 65536 ≤ length then throw (.tooLarge .methodCode)
  let table ← addParams length.toUInt16 table (unnamed.zip (renames.drop table.size))
  return some (table, given)

/-- Puts a table of local variables into its place, or behind all attributes where it has none. -/
def putTable (attributes : Array Attribute) (place : Option Nat) (data : Bytes) :
    PoolM (Array Attribute) :=
  match place with
  | some i => pure (setPayload attributes i data)
  | none => do
    let nameIndex ← Pool.internText "LocalVariableTable"
    return attributes.push { nameIndex, data }

/-- Gives the table of generic types, where there is one, the names given to the entries of the
other table. -/
def nameTypes (given : GivenNames) (attributes : Array Attribute) (place : Option Nat) :
    Except FormatError (Array Attribute) :=
  match place with
  | none => .ok attributes
  | some i => do
    let types ← LocalVariable.decodeTable (payload attributes i)
    let types := types.map fun v =>
      match given[rangeOf v]? with
      | some nameIndex => { v with nameIndex }
      | none => v
    return setPayload attributes i (← LocalVariable.encodeTable types)

/-- The table of local variables at a place among attributes, which is empty where there is none. -/
def tableAt (attributes : Array Attribute) (place : Option Nat) :
    Except FormatError (Array LocalVariable) :=
  match place with
  | some i => LocalVariable.decodeTable (payload attributes i)
  | none => .ok #[]

/-- Replaces the unusable names of the local variables of a body. -/
def replaceLocals (s : Scope) (naming : LocalPolicy) (code : Code) : PoolM Code := do
  let tablePlace := code.attributes.findIdx? (Attribute.isNamed s.source "LocalVariableTable")
  let typesPlace := code.attributes.findIdx? (Attribute.isNamed s.source "LocalVariableTypeTable")
  let table ← MonadExcept.ofExcept (tableAt code.attributes tablePlace)
  match ← s.renameTable naming code.code.length table with
  | none => return code
  | some (table, given) =>
    let data ← MonadExcept.ofExcept (LocalVariable.encodeTable table)
    -- A table that is appended moves no other attribute, so the place of the types stays.
    let attributes ← putTable code.attributes tablePlace data
    let attributes ← MonadExcept.ofExcept (nameTypes given attributes typesPlace)
    return { code with attributes }

end Scope

end Relabel
