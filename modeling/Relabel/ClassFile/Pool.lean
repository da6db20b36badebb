import Std.Data.HashMap
import Relabel.ClassFile.Constant

/-!
# Constant pools

A pool is a row of slots; slot 0 is never used and a wide entry leaves the slot after it unusable.
Texts, classes and name-and-type entries are found by an index from what they hold to a slot. It is
built by the first search and kept in step from then on: `push` adds what it does not hold, and
`set` forgets the old entry where it was the one found. An entry overwritten that way may hide an
equal one in another slot.
-/

namespace Relabel

/-- What an entry is found by. -/
inductive SearchKey where
  | utf8 (text : String)
  | ofClass (name : UInt16)
  | nameAndType (name desc : UInt16)
  deriving DecidableEq, Hashable, Repr

/-- The key of an entry that can be searched for. -/
def Constant.key? : Constant → Option SearchKey
  | .utf8 text => some (.utf8 text)
  | .ofClass name => some (.ofClass name)
  | .nameAndType name desc => some (.nameAndType name desc)
  | _ => none

/-- A constant pool. -/
structure Pool where
  slots : Array Constant := #[.unusable]
  /-- The slots of the entries that can be searched for, once a search was made. -/
  index : Option (Std.HashMap SearchKey UInt16) := none

/-- A member reference with its names. -/
structure MemberReference where
  kind : ReferenceKind
  owner : String
  name : String
  desc : String
  deriving DecidableEq, Repr

/-- A change to a pool. Where it fails, the pool keeps what was appended before. -/
abbrev PoolM := EStateM FormatError Pool

namespace Pool

/-- The number of slots, slot 0 included. -/
def size (pool : Pool) : Nat :=
  pool.slots.size

/-- Whether there is no entry. -/
def isEmpty (pool : Pool) : Bool :=
  pool.size ≤ 1

/-- The entry of a slot. -/
def get? (pool : Pool) (i : UInt16) : Option Constant :=
  pool.slots[i.toNat]?

/-! ### Reading entries -/

/-- The text of an entry. -/
def utf8 (pool : Pool) (i : UInt16) : Except FormatError String :=
  match pool.get? i with
  | some (.utf8 text) => .ok text
  | some (.lossyUtf8 text _) => .ok text
  | _ => .error (.badConstant i .utf8)

/-- The name of a class entry. -/
def className (pool : Pool) (i : UInt16) : Except FormatError String :=
  match pool.get? i with
  | some (.ofClass name) => pool.utf8 name
  | _ => .error (.badConstant i .ofClass)

/-- The name and descriptor of a name-and-type entry. -/
def nameAndType (pool : Pool) (i : UInt16) : Except FormatError (String × String) :=
  match pool.get? i with
  | some (.nameAndType name desc) => do
    let name ← pool.utf8 name
    let desc ← pool.utf8 desc
    return (name, desc)
  | _ => .error (.badConstant i .nameAndType)

/-- A member reference with its names. -/
def memberReference (pool : Pool) (i : UInt16) : Except FormatError MemberReference :=
  match pool.get? i with
  | some (.member kind owner nameAndType) => do
    let (name, desc) ← pool.nameAndType nameAndType
    let owner ← pool.className owner
    return { kind, owner, name, desc }
  | _ => .error (.badConstant i .member)

/-! ### Searching and adding entries -/

/-- The index of a row of slots: for each key the first slot that holds it. -/
def indexOf (slots : Array Constant) : Std.HashMap SearchKey UInt16 :=
  (slots.toList.zipIdx.drop 1).foldl (fun index (constant, i) =>
    match constant.key? with
    | some key => index.insertIfNew key i.toUInt16
    | none => index) {}

/-- The index after a new entry. -/
def noteKey (index : Option (Std.HashMap SearchKey UInt16)) (constant : Constant) (i : UInt16) :
    Option (Std.HashMap SearchKey UInt16) :=
  match constant.key? with
  -- The first slot with a key stays the one found.
  | some key => index.map (·.insertIfNew key i)
  | none => index

/-- The index after an entry is gone from a slot. -/
def forgetKey (index : Option (Std.HashMap SearchKey UInt16)) (constant : Constant) (i : UInt16) :
    Option (Std.HashMap SearchKey UInt16) :=
  match constant.key? with
  | some key => index.map fun index => if index[key]? = some i then index.erase key else index
  | none => index

/-- Appends an entry and gives its index. A pool never has more than 65535 slots. -/
def push (constant : Constant) : PoolM UInt16 := fun pool =>
  let needed := if constant.isWide then 2 else 1
  if 65535 < pool.slots.size + needed then .error .poolOverflow pool
  else
    -- There are at most 65534 slots here, so the number fits.
    let i := pool.slots.size.toUInt16
    let ⟨slots, index⟩ := pool
    let slots := slots.push constant
    .ok i {
      slots := if constant.isWide then slots.push .unusable else slots
      index := noteKey index constant i }

/-- Replaces the entry of a slot the pool has. -/
def set (pool : Pool) (i : UInt16) (constant : Constant) : Pool :=
  match pool.slots[i.toNat]? with
  | some old =>
    let ⟨slots, index⟩ := pool
    { slots := slots.setIfInBounds i.toNat constant
      index := noteKey (forgetKey index old i) constant i }
  | none => pool

/-- The index of an entry with a key, appended where the search finds none. -/
def intern (key : SearchKey) (constant : Constant) : PoolM UInt16 := fun pool =>
  let ⟨slots, index⟩ := pool
  -- The first search builds the index; even a search that then fails leaves it there.
  let index := match index with
    | some index => index
    | none => indexOf slots
  match index[key]? with
  | some i => .ok i { slots, index := some index }
  | none => push constant { slots, index := some index }

/-- The index of a text. -/
def internText (text : String) : PoolM UInt16 :=
  intern (.utf8 text) (.utf8 text)

/-- The index of a class. -/
def internClass (name : String) : PoolM UInt16 := do
  let name ← internText name
  intern (.ofClass name) (.ofClass name)

/-- The index of a name and descriptor. -/
def internNameAndType (name desc : String) : PoolM UInt16 := do
  let name ← internText name
  let desc ← internText desc
  intern (.nameAndType name desc) (.nameAndType name desc)

/-- Appends a member reference and gives its index. -/
def internMember (ref : MemberReference) : PoolM UInt16 := do
  let owner ← internClass ref.owner
  let nameAndType ← internNameAndType ref.name ref.desc
  push (.member ref.kind owner nameAndType)

/-- Replaces the entry of a slot. -/
def setM (i : UInt16) (constant : Constant) : PoolM Unit :=
  fun pool => .ok () (pool.set i constant)

/-! ### Binary form -/

/-- Reads entries into the slots from `index` on until `count` slots are filled. The number of a
slot has 16 bits. Every entry takes at least one byte, so the bytes left bound the entries. -/
def decodeSlots (count : UInt16) : Nat → UInt16 → Array Constant → Decoder (Array Constant)
  | 0, _, slots => pure slots
  | fuel + 1, index, slots =>
    if index < count then do
      let constant ← Constant.decode index
      -- A wide entry in slot 65534 takes the number round to 0, and reading goes on.
      if constant.isWide then
        decodeSlots count fuel (index + 2) ((slots.push constant).push .unusable)
      else decodeSlots count fuel (index + 1) (slots.push constant)
    else pure slots

/-- Reads a pool. -/
def decode : Decoder Pool := do
  let count ← Decoder.u16
  let rest ← Decoder.rest
  let slots ← decodeSlots count (rest.length + 1) 1 #[.unusable]
  return { slots }

/-- The binary form of a pool. -/
def encode (pool : Pool) : Except FormatError Bytes := do
  let count ← encodeCount .pool pool.size
  let entries ← (pool.slots.toList.zipIdx.drop 1).mapM fun (constant, i) =>
    constant.encode i.toUInt16
  return count ++ entries.flatten

end Pool

end Relabel
