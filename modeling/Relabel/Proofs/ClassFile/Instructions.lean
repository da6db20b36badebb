import Relabel.ClassFile.Instruction
import Relabel.Proofs.Steps

/-!
# Instructions and their bytes

A body is a row of instructions: an opcode and its operands. Most have operands of a fixed size. The
two switches are padded, so that the words behind an opcode start at a multiple of four, and have a
table as long as they say. `wide` stands in front of an instruction for a local variable and makes
room for an index of two bytes. The lengths that a walk over a body goes by are those of the forms.

## Main results

- `Mnemonic.exists_opcode_eq_iff`: which bytes are opcodes.
- `Mnemonic.layout?_opcode`: the table of layouts gives every opcode the size of its operands.
- `Instruction.length_of_paddedAt`: the length of an instruction is found from its bytes.
-/

namespace Relabel

/-- The instructions by name, in the order of their opcodes. The one that returns without a value is
`vreturn`. -/
inductive Mnemonic where
  -- Constants, from 0x00 on.
  | nop | aconst_null | iconst_m1 | iconst_0 | iconst_1 | iconst_2 | iconst_3 | iconst_4 | iconst_5
  | lconst_0 | lconst_1 | fconst_0 | fconst_1 | fconst_2 | dconst_0 | dconst_1
  | bipush | sipush | ldc | ldc_w | ldc2_w
  -- Loads, from 0x15 on.
  | iload | lload | fload | dload | aload
  | iload_0 | iload_1 | iload_2 | iload_3 | lload_0 | lload_1 | lload_2 | lload_3
  | fload_0 | fload_1 | fload_2 | fload_3 | dload_0 | dload_1 | dload_2 | dload_3
  | aload_0 | aload_1 | aload_2 | aload_3
  | iaload | laload | faload | daload | aaload | baload | caload | saload
  -- Stores, from 0x36 on.
  | istore | lstore | fstore | dstore | astore
  | istore_0 | istore_1 | istore_2 | istore_3 | lstore_0 | lstore_1 | lstore_2 | lstore_3
  | fstore_0 | fstore_1 | fstore_2 | fstore_3 | dstore_0 | dstore_1 | dstore_2 | dstore_3
  | astore_0 | astore_1 | astore_2 | astore_3
  | iastore | lastore | fastore | dastore | aastore | bastore | castore | sastore
  -- The stack, from 0x57 on.
  | pop | pop2 | dup | dup_x1 | dup_x2 | dup2 | dup2_x1 | dup2_x2 | swap
  -- Arithmetic, from 0x60 on.
  | iadd | ladd | fadd | dadd | isub | lsub | fsub | dsub | imul | lmul | fmul | dmul
  | idiv | ldiv | fdiv | ddiv | irem | lrem | frem | drem | ineg | lneg | fneg | dneg
  | ishl | lshl | ishr | lshr | iushr | lushr | iand | land | ior | lor | ixor | lxor | iinc
  -- Conversions and comparisons, from 0x85 on.
  | i2l | i2f | i2d | l2i | l2f | l2d | f2i | f2l | f2d | d2i | d2l | d2f | i2b | i2c | i2s
  | lcmp | fcmpl | fcmpg | dcmpl | dcmpg
  -- Jumps and returns, from 0x99 on.
  | ifeq | ifne | iflt | ifge | ifgt | ifle
  | if_icmpeq | if_icmpne | if_icmplt | if_icmpge | if_icmpgt | if_icmple | if_acmpeq | if_acmpne
  | goto | jsr | ret | tableswitch | lookupswitch
  | ireturn | lreturn | freturn | dreturn | areturn | vreturn
  -- Members and objects, from 0xb2 on.
  | getstatic | putstatic | getfield | putfield
  | invokevirtual | invokespecial | invokestatic | invokeinterface | invokedynamic
  | new | newarray | anewarray | arraylength | athrow | checkcast | instanceof
  | monitorenter | monitorexit
  -- What came later, from 0xc4 on.
  | wide | multianewarray | ifnull | ifnonnull | goto_w | jsr_w
  deriving DecidableEq

namespace Mnemonic

/-- Opcodes are numbered from 0 on without a gap. -/
def opcode (m : Mnemonic) : UInt8 :=
  m.ctorIdx.toUInt8

/-- How many bytes of operands there are, unless that depends on the place of the instruction or on
what they hold. -/
def operandCount? : Mnemonic → Option Nat
  | tableswitch | lookupswitch | wide => none
  | bipush | ldc | iload | lload | fload | dload | aload | istore | lstore | fstore | dstore | astore
  | ret | newarray => some 1
  | sipush | ldc_w | ldc2_w | iinc | ifeq | ifne | iflt | ifge | ifgt | ifle
  | if_icmpeq | if_icmpne | if_icmplt | if_icmpge | if_icmpgt | if_icmple | if_acmpeq | if_acmpne
  | goto | jsr | getstatic | putstatic | getfield | putfield
  | invokevirtual | invokespecial | invokestatic | new | anewarray | checkcast | instanceof
  | ifnull | ifnonnull => some 2
  | multianewarray => some 3
  | invokeinterface | invokedynamic | goto_w | jsr_w => some 4
  | _ => some 0

/-- Whether the first two bytes of operands name a method that is called. -/
def calls : Mnemonic → Bool
  | invokevirtual | invokespecial | invokestatic | invokeinterface => true
  | _ => false

/-- Whether the one operand is the index of a local variable. -/
def hasLocal : Mnemonic → Bool
  | iload | lload | fload | dload | aload | istore | lstore | fstore | dstore | astore | ret => true
  | _ => false

/-- The opcodes are the bytes up to `c9`. -/
theorem exists_opcode_eq_iff (b : UInt8) : (∃ m : Mnemonic, m.opcode = b) ↔ b.toNat ≤ 0xc9 := by
  constructor
  · rintro ⟨m, rfl⟩
    cases m <;> decide
  · intro hb
    -- The constructors stand in the order of their opcodes.
    have hnumbers : ∀ n : Fin 202, (ofNat n).ctorIdx = n := by decide +kernel
    refine ⟨ofNat b.toNat, UInt8.toNat_inj.1 ?_⟩
    rw [opcode, hnumbers ⟨b.toNat, Nat.lt_succ_of_le hb⟩]
    exact UInt8.toNat_ofNat_of_lt' b.toNat_lt

/-- The layout of an opcode with a fixed number of operands. -/
theorem layout?_opcode {m : Mnemonic} {n : Nat} (h : m.operandCount? = some n) :
    Instruction.layout? m.opcode = some (.fixed (n + 1)) := by
  cases m <;> cases h <;> rfl

/-- The opcodes that call are those of the calls. -/
theorem isInvocation_opcode (m : Mnemonic) : Instruction.isInvocation m.opcode = m.calls := by
  cases m <;> rfl

/-- A call has the two bytes of the constant it refers to. -/
theorem two_le_of_calls {m : Mnemonic} (hcalls : m.calls) {n : Nat}
    (h : m.operandCount? = some n) : 2 ≤ n := by
  cases m <;> cases hcalls <;> cases h <;> decide

end Mnemonic

/-- An instruction with its operands. -/
inductive Instruction where
  | plain (m : Mnemonic) (operands : Bytes) (h : m.operandCount? = some operands.length)
  /-- A target for each key from the lowest to the highest. -/
  | tableSwitch (default low high : Int32) (targets : List Int32) (hle : low.toInt ≤ high.toInt)
    (h : (targets.length : Int) = high.toInt - low.toInt + 1)
  /-- Keys with their targets. Their number is a signed word. -/
  | lookupSwitch (default : Int32) (pairs : List (Int32 × Int32)) (h : pairs.length < 0x80000000)
  /-- An instruction for a local variable with a wide index. -/
  | wide (m : Mnemonic) (h : m.hasLocal) (index : UInt16)
  /-- `iinc` with a wide index and amount. -/
  | wideIncrement (index amount : UInt16)

namespace Instruction

/-- The bytes of a signed word. -/
def ofWord (x : Int32) : Bytes :=
  Bytes.ofUInt32 x.toUInt32

/-- The opcode at the front of the instruction. -/
def opcode : Instruction → UInt8
  | plain m _ _ => m.opcode
  | tableSwitch .. => Mnemonic.tableswitch.opcode
  | lookupSwitch .. => Mnemonic.lookupswitch.opcode
  | wide .. | wideIncrement .. => Mnemonic.wide.opcode

/-- Every opcode stands in front of some instruction, and no other byte does. -/
theorem exists_opcode_eq_iff (b : UInt8) : (∃ i : Instruction, i.opcode = b) ↔ b.toNat ≤ 0xc9 := by
  rw [← Mnemonic.exists_opcode_eq_iff]
  constructor
  · rintro ⟨i, rfl⟩
    cases i <;> exact ⟨_, rfl⟩
  · rintro ⟨m, rfl⟩
    cases hcount : m.operandCount? with
    | some n => exact ⟨plain m (List.replicate n 0) (by rw [hcount, List.length_replicate]), rfl⟩
    | none =>
      -- The opcodes without a fixed number of operands are the two switches and `wide`.
      cases m <;> cases hcount
      · exact ⟨tableSwitch 0 0 0 [0] (by decide) (by decide), rfl⟩
      · exact ⟨lookupSwitch 0 [] (by decide), rfl⟩
      · exact ⟨wideIncrement 0 0, rfl⟩

/-- What stands behind the opcode. Only a switch is padded. -/
def operands (padding : Bytes) : Instruction → Bytes
  | plain _ operands _ => operands
  | tableSwitch default low high targets _ _ =>
    padding ++ ofWord default ++ ofWord low ++ ofWord high ++ targets.flatMap ofWord
  | lookupSwitch default pairs _ =>
    padding ++ ofWord default ++ Bytes.ofUInt32 pairs.length.toUInt32 ++
      pairs.flatMap fun pair => ofWord pair.1 ++ ofWord pair.2
  | wide m _ index => m.opcode :: Bytes.ofUInt16 index
  | wideIncrement index amount =>
    Mnemonic.iinc.opcode :: Bytes.ofUInt16 index ++ Bytes.ofUInt16 amount

/-- The bytes of the instruction. -/
def form (padding : Bytes) (i : Instruction) : Bytes :=
  i.opcode :: i.operands padding

/-- In a switch at `pc`, as few bytes of padding as there can be bring the words to a multiple of
four. They may be any bytes. -/
def PaddedAt (pc : Nat) (padding : Bytes) : Instruction → Prop
  | tableSwitch .. | lookupSwitch .. => padding.length < 4 ∧ (pc + 1 + padding.length) % 4 = 0
  | _ => padding = []

/-- The instructions stand one behind the other from `pc` on. -/
inductive LaidOut : Nat → List Instruction → Bytes → Prop
  | nil {pc : Nat} : LaidOut pc [] []
  | cons {pc : Nat} {i : Instruction} {rest : List Instruction} {code : Bytes} (padding : Bytes)
      (hpadding : i.PaddedAt pc padding)
      (hrest : LaidOut (pc + (i.form padding).length) rest code) :
      LaidOut pc (i :: rest) (i.form padding ++ code)

/-- The constant that the instruction refers to, if it calls a method. -/
def called? : Instruction → Option UInt16
  | plain m (high :: low :: _) _ => if m.calls then some (Bytes.toUInt16 high low) else none
  | _ => none

/-! ### Padding -/

variable {pc : Nat} {padding : Bytes} {i : Instruction}

/-- Less than four bytes are padded. -/
theorem padding_lt (pc : Nat) : Instruction.padding pc < 4 :=
  Nat.mod_lt _ (by decide)

/-- What follows the padding stands at a multiple of four. -/
theorem aligned_padding (pc : Nat) : (pc + 1 + Instruction.padding pc) % 4 = 0 := by
  unfold Instruction.padding
  omega

theorem length_eq_padding (hlt : padding.length < 4)
    (haligned : (pc + 1 + padding.length) % 4 = 0) : Instruction.padding pc = padding.length := by
  unfold Instruction.padding
  omega

/-- Wherever an instruction stands, it can be padded. -/
theorem exists_paddedAt (pc : Nat) (i : Instruction) : ∃ padding, i.PaddedAt pc padding := by
  cases i with
  | tableSwitch | lookupSwitch =>
    refine ⟨List.replicate (Instruction.padding pc) 0, ?_⟩
    rw [PaddedAt, List.length_replicate]
    exact ⟨padding_lt pc, aligned_padding pc⟩
  | _ => exact ⟨[], rfl⟩

/-- Any instructions can be laid out. -/
theorem exists_laidOut (pc : Nat) (instructions : List Instruction) :
    ∃ code, LaidOut pc instructions code := by
  induction instructions generalizing pc with
  | nil => exact ⟨[], .nil⟩
  | cons i rest ih =>
    obtain ⟨padding, hpadding⟩ := exists_paddedAt pc i
    obtain ⟨code, hcode⟩ := ih (pc + (i.form padding).length)
    exact ⟨_, .cons padding hpadding hcode⟩

/-! ### Lengths -/

/-- A byte above `c9` has no layout. -/
theorem layout?_eq_none {b : UInt8} (h : 0xc9 < b.toNat) : layout? b = none := by
  unfold layout?
  dsimp only
  repeat rw [if_neg (by omega)]

/-- An instruction of a fixed length has its opcode at least. -/
theorem pos_of_layout? {b : UInt8} {n : Nat} (h : layout? b = some (.fixed n)) : 0 < n := by
  have hb : b.toNat ≤ 0xc9 := Nat.le_of_not_lt fun hlt => by
    rw [layout?_eq_none hlt] at h
    cases h
  obtain ⟨m, rfl⟩ := (Mnemonic.exists_opcode_eq_iff b).2 hb
  cases hcount : m.operandCount? with
  | some k =>
    rw [Mnemonic.layout?_opcode hcount] at h
    cases h
    exact Nat.succ_pos k
  | none =>
    -- The two switches and `wide`, which have no fixed length.
    cases m <;> cases hcount <;> cases h

/-- Every instruction takes at least its opcode. -/
theorem length_pos {pc n : Nat} {b : UInt8} {operands : Bytes}
    (h : length pc b operands = .ok n) : 0 < n := by
  unfold length at h
  split at h
  · cases h
  · next hlayout =>
    cases h
    exact pos_of_layout? hlayout
  · split at h
    · cases h
    · cases h
      split <;> decide
  -- A table switch has one target more than the difference of its bounds, but never less than none.
  · obtain ⟨low, -, h⟩ := Except.bind_eq_ok.1 h
    obtain ⟨high, -, h⟩ := Except.bind_eq_ok.1 h
    cases h
    omega
  · obtain ⟨pairs, -, h⟩ := Except.bind_eq_ok.1 h
    cases h
    omega

/-- A word is read behind as many bytes as are skipped. -/
theorem word_eq {skip : Nat} {operands after : Bytes} {x : UInt32} (pc : Nat) (before : Bytes)
    (hskip : before.length = skip) (h : operands = before ++ (Bytes.ofUInt32 x ++ after)) :
    word pc skip operands = .ok x.toInt32.toInt := by
  rw [word, h, List.drop_left' hskip]
  show Except.ok (Bytes.toUInt32 _ _ _ _).toInt32.toInt = _
  rw [Bytes.toUInt32_bytes]

/-- A number below the bound is kept as a signed word. -/
theorem toInt_toInt32_toUInt32 {n : Nat} (h : n < 0x80000000) : n.toUInt32.toInt32.toInt = n := by
  have hn : n.toUInt32.toNat = n := UInt32.toNat_ofNat_of_lt' (Nat.lt_trans h (by decide))
  show n.toUInt32.toBitVec.toInt = n
  rw [BitVec.toInt_eq_toNat_of_lt]
  · exact congrArg _ hn
  · show 2 * n.toUInt32.toNat < 2 ^ 32
    omega

theorem length_ofWord (x : Int32) : (ofWord x).length = 4 := rfl

/-- The length of a table switch from its bounds. -/
theorem length_tableSwitch (hpadding : Instruction.padding pc = padding.length)
    (default low high : Int32) (rest : Bytes) :
    length pc Mnemonic.tableswitch.opcode
      (padding ++ ofWord default ++ ofWord low ++ ofWord high ++ rest) =
        .ok (1 + padding.length + 12 + 4 * (high.toInt - low.toInt + 1).toNat) := by
  have hlow : word pc (padding.length + 4)
      (padding ++ ofWord default ++ ofWord low ++ ofWord high ++ rest) = .ok low.toInt :=
    word_eq pc (padding ++ ofWord default) (by simp [length_ofWord])
      (by simp only [List.append_assoc]; rfl)
  have hhigh : word pc (padding.length + 8)
      (padding ++ ofWord default ++ ofWord low ++ ofWord high ++ rest) = .ok high.toInt :=
    word_eq pc (padding ++ ofWord default ++ ofWord low) (by simp [length_ofWord])
      (by simp only [List.append_assoc]; rfl)
  unfold length
  rw [show layout? Mnemonic.tableswitch.opcode = some .tableSwitch from rfl]
  simp only [hpadding, hlow, hhigh]
  rfl

/-- The length of a lookup switch from its number of pairs. -/
theorem length_lookupSwitch (hpadding : Instruction.padding pc = padding.length)
    (default : Int32) {pairs : Nat} (hpairs : pairs < 0x80000000) (rest : Bytes) :
    length pc Mnemonic.lookupswitch.opcode
      (padding ++ ofWord default ++ Bytes.ofUInt32 pairs.toUInt32 ++ rest) =
        .ok (1 + padding.length + 8 + 8 * pairs) := by
  have hcount : word pc (padding.length + 4)
      (padding ++ ofWord default ++ Bytes.ofUInt32 pairs.toUInt32 ++ rest) = .ok pairs := by
    rw [← toInt_toInt32_toUInt32 hpairs]
    exact word_eq pc (padding ++ ofWord default) (by simp [length_ofWord])
      (by simp only [List.append_assoc]; rfl)
  unfold length
  rw [show layout? Mnemonic.lookupswitch.opcode = some .lookupSwitch from rfl]
  simp only [hpadding, hcount]
  rfl

/-- The length of an instruction is found from its bytes, whatever stands behind it. -/
theorem length_of_paddedAt (h : i.PaddedAt pc padding) (rest : Bytes) :
    length pc i.opcode (i.operands padding ++ rest) = .ok (i.form padding).length := by
  cases i with
  | plain m operands hcount =>
    unfold length
    rw [opcode, Mnemonic.layout?_opcode hcount]
    rfl
  | tableSwitch default low high targets hle htargets =>
    -- The keys say how many targets there are.
    have hpadding := length_eq_padding h.1 h.2
    rw [opcode, operands, List.append_assoc, length_tableSwitch hpadding, ← htargets,
      Int.toNat_natCast]
    have htable : (targets.flatMap ofWord).length = 4 * targets.length := by
      simp [List.length_flatMap, length_ofWord, Nat.mul_comm]
    refine congrArg Except.ok ?_
    simp only [form, operands, List.length_cons, List.length_append, length_ofWord, htable]
    omega
  | lookupSwitch default pairs hpairs =>
    have hpadding := length_eq_padding h.1 h.2
    have htable : (pairs.flatMap fun pair => ofWord pair.1 ++ ofWord pair.2).length =
        8 * pairs.length := by
      simp [List.length_flatMap, length_ofWord, Nat.mul_comm]
    rw [opcode, operands, List.append_assoc, length_lookupSwitch hpadding default hpairs]
    refine congrArg Except.ok ?_
    simp only [form, operands, List.length_cons, List.length_append, length_ofWord, htable,
      Bytes.length_ofUInt32]
    omega
  | wide m hlocal index =>
    -- None of the opcodes that can be widened is that of `iinc`.
    cases m <;> cases hlocal <;> rfl
  | wideIncrement index amount => rfl

end Instruction

end Relabel
