import Relabel.ClassFile.Error

/-!
# Instructions

How long each instruction is, and the first call in a method body. A body is walked from
instruction to instruction, so an operand is never taken for an opcode.
-/

namespace Relabel.Instruction

/-- How the operands of an instruction are laid out. -/
inductive Layout where
  /-- The instruction has this many bytes, opcode included. -/
  | fixed (length : Nat)
  /-- The opcode widens the one after it. -/
  | wide
  /-- Padding, a default, the lowest and the highest key, and a target for each key. -/
  | tableSwitch
  /-- Padding, a default, a number of pairs, and the pairs. -/
  | lookupSwitch
  deriving DecidableEq, Repr

/-- The layout of an instruction with this opcode. -/
def layout? (opcode : UInt8) : Option Layout :=
  let n := opcode.toNat
  if n ≤ 0x0f then some (.fixed 1)
  else if n = 0x10 then some (.fixed 2)
  else if n = 0x11 then some (.fixed 3)
  else if n = 0x12 then some (.fixed 2)
  else if n ≤ 0x14 then some (.fixed 3)
  else if n ≤ 0x19 then some (.fixed 2)
  else if n ≤ 0x35 then some (.fixed 1)
  else if n ≤ 0x3a then some (.fixed 2)
  else if n = 0x84 then some (.fixed 3)
  else if n ≤ 0x98 then some (.fixed 1)
  else if n ≤ 0xa8 then some (.fixed 3)
  else if n = 0xa9 then some (.fixed 2)
  else if n = 0xaa then some .tableSwitch
  else if n = 0xab then some .lookupSwitch
  else if n ≤ 0xb1 then some (.fixed 1)
  else if n ≤ 0xb8 then some (.fixed 3)
  else if n ≤ 0xba then some (.fixed 5)
  else if n = 0xbb then some (.fixed 3)
  else if n = 0xbc then some (.fixed 2)
  else if n = 0xbd then some (.fixed 3)
  else if n ≤ 0xbf then some (.fixed 1)
  else if n ≤ 0xc1 then some (.fixed 3)
  else if n ≤ 0xc3 then some (.fixed 1)
  else if n = 0xc4 then some .wide
  else if n = 0xc5 then some (.fixed 4)
  else if n ≤ 0xc7 then some (.fixed 3)
  else if n ≤ 0xc9 then some (.fixed 5)
  else none

/-- Whether the opcode calls a method that its operand names. -/
def isInvocation (opcode : UInt8) : Bool :=
  0xb6 ≤ opcode && opcode ≤ 0xb9

/-- The bytes of padding after a switch opcode, which align what follows to four bytes. -/
def padding (pc : Nat) : Nat :=
  (4 - (pc + 1) % 4) % 4

/-- The signed word `skip` bytes after the opcode at `pc`, given what follows that opcode. -/
def word (pc skip : Nat) (operands : Bytes) : Except FormatError Int :=
  match operands.drop skip with
  | a :: b :: c :: d :: _ => .ok (Bytes.toUInt32 a b c d).toInt32.toInt
  | _ => .error (.truncated (pc + 1 + skip))

/-- The length of the instruction at `pc`, given its opcode and what follows that. -/
def length (pc : Nat) (opcode : UInt8) (operands : Bytes) : Except FormatError Nat :=
  match layout? opcode with
  | none => .error (.badInstruction pc opcode)
  | some (.fixed n) => .ok n
  | some .wide =>
    match operands with
    | [] => .error (.truncated (pc + 1))
    | widened :: _ => .ok (if widened = 0x84 then 6 else 4)
  | some .tableSwitch => do
    let low ← word pc (padding pc + 4) operands
    let high ← word pc (padding pc + 8) operands
    return 1 + padding pc + 12 + 4 * (high - low + 1).toNat
  | some .lookupSwitch => do
    let pairs ← word pc (padding pc + 4) operands
    return 1 + padding pc + 8 + 8 * pairs.toNat

/-- The operand of the first call from `pc` on, where `skip` bytes still belong to the instruction
before. -/
def firstInvocationFrom : Nat → Nat → Bytes → Except FormatError (Option UInt16)
  | _, _, [] => .ok none
  | pc, skip + 1, _ :: rest => firstInvocationFrom (pc + 1) skip rest
  | pc, 0, opcode :: rest =>
    if isInvocation opcode then
      match rest with
      | [] => .error (.truncated (pc + 1))
      | [_] => .error (.truncated (pc + 2))
      | high :: low :: _ => .ok (some (Bytes.toUInt16 high low))
    else
      match length pc opcode rest with
      | .ok n => firstInvocationFrom (pc + 1) (n - 1) rest
      | .error e => .error e

/-- The operand of the first call in a method body. -/
def firstCall (code : Bytes) : Except FormatError (Option UInt16) :=
  firstInvocationFrom 0 0 code

end Relabel.Instruction
