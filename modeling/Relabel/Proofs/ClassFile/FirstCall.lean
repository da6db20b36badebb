import Mathlib.Logic.Relation
import Relabel.ClassFile.Code
import Relabel.Proofs.ClassFile.Instructions

/-!
# The first call in a body

The walk over a body goes from one instruction to the one behind it until it meets a call, an
instruction whose length is not known, or the end. Every instruction has a length, so it gets there.
In a body that instructions are laid out in, it only ever stands in front of one of them, and so it
finds the first that calls a method.

## Main results

- `Instruction.exists_stops`: the walk over any bytes stops, and how.
- `Instruction.OnBoundary.step`: one step leads from the front of an instruction to that of the next.
- `Instruction.OnBoundary.eq_of_stops`: what is found where the walk stops.
- `Code.firstCall_of_laidOut`: all of it for the first call in a body.
-/

namespace Relabel

namespace Instruction

variable {pc pc' n : Nat} {opcode : UInt8} {operands code padding : Bytes} {i : Instruction}
  {instructions : List Instruction}

/-! ### The walk -/

/-- Where the walk goes from an instruction, unless that is a call, its length is not known, or the
code has ended. -/
def nextPc? (code : Bytes) (pc : Nat) : Option Nat :=
  match code.drop pc with
  | [] => none
  | opcode :: operands =>
    if isInvocation opcode then none
    else
      match length pc opcode operands with
      | .ok n => some (pc + n)
      | .error _ => none

/-- The walk stops here, with this result. -/
inductive Stops (code : Bytes) (pc : Nat) : Except FormatError (Option UInt16) → Prop
  | atEnd (h : code.length ≤ pc) : Stops code pc (.ok none)
  | atCall {opcode high low : UInt8} {rest : Bytes}
      (h : code.drop pc = opcode :: high :: low :: rest) (hcall : isInvocation opcode) :
      Stops code pc (.ok (some (Bytes.toUInt16 high low)))
  | cutOff {opcode : UInt8} {operands : Bytes} (h : code.drop pc = opcode :: operands)
      (hcall : isInvocation opcode) (hshort : operands.length < 2) :
      Stops code pc (.error (.truncated code.length))
  | noLength {opcode : UInt8} {operands : Bytes} {e : FormatError}
      (h : code.drop pc = opcode :: operands) (hcall : isInvocation opcode = false)
      (hlength : length pc opcode operands = .error e) : Stops code pc (.error e)

/-- The walk goes on behind an instruction that is no call and has a length. -/
theorem nextPc?_eq_some : nextPc? code pc = some pc' ↔ ∃ opcode operands n,
    code.drop pc = opcode :: operands ∧ isInvocation opcode = false ∧
    length pc opcode operands = .ok n ∧ pc' = pc + n := by
  unfold nextPc?
  constructor
  · intro h
    split at h
    · cases h
    · next opcode operands hdrop =>
      split at h
      · cases h
      · next hcall =>
        split at h
        · next n hlength =>
          exact ⟨opcode, operands, n, hdrop, Bool.eq_false_iff.2 hcall, hlength,
            (Option.some.inj h).symm⟩
        · cases h
  · rintro ⟨opcode, operands, n, hdrop, hcall, hlength, rfl⟩
    simp only [hdrop, hcall, hlength, Bool.false_eq_true, if_false]

/-- What belongs to the instruction before is passed over. -/
theorem firstInvocationFrom_skip (pc skip : Nat) (code : Bytes) :
    firstInvocationFrom pc skip code = firstInvocationFrom (pc + skip) 0 (code.drop skip) := by
  induction skip generalizing pc code with
  | zero => rfl
  | succ skip ih =>
    cases code with
    -- Behind the end there is nothing to find, however many bytes should still be skipped.
    | nil => rfl
    | cons b rest =>
      show firstInvocationFrom (pc + 1) skip rest = _
      rw [ih, List.drop_succ_cons, Nat.add_assoc, Nat.add_comm 1]

/-- The scan finds from an instruction what it finds from the next one. -/
theorem firstInvocationFrom_of_nextPc? (h : nextPc? code pc = some pc') :
    firstInvocationFrom pc 0 (code.drop pc) = firstInvocationFrom pc' 0 (code.drop pc') := by
  obtain ⟨opcode, operands, n, hdrop, hcall, hlength, rfl⟩ := nextPc?_eq_some.1 h
  obtain ⟨skip, rfl⟩ := Nat.exists_eq_add_one_of_ne_zero (Nat.ne_of_gt (length_pos hlength))
  have hskip : firstInvocationFrom pc 0 (opcode :: operands) =
      firstInvocationFrom (pc + 1) skip operands := by
    conv_lhs => unfold firstInvocationFrom
    simp only [hcall, Bool.false_eq_true, if_false, hlength, Nat.add_sub_cancel]
  rw [hdrop, hskip, firstInvocationFrom_skip, Nat.add_assoc, Nat.add_comm 1, ← List.drop_drop,
    hdrop, List.drop_succ_cons]

/-- Where the walk does not go on, it stops with what the scan gives there. -/
theorem stops_of_nextPc?_eq_none (h : nextPc? code pc = none) :
    Stops code pc (firstInvocationFrom pc 0 (code.drop pc)) := by
  cases hdrop : code.drop pc with
  | nil => exact .atEnd (List.drop_eq_nil_iff.1 hdrop)
  | cons opcode operands =>
    have hlength : code.length - pc = operands.length + 1 := by
      rw [← List.length_drop, hdrop, List.length_cons]
    unfold firstInvocationFrom
    cases hcall : isInvocation opcode with
    | true =>
      -- The end of the code is missed, whichever of the two bytes is not there.
      have hcutOff (hshort : operands.length < 2) :
          Stops code pc (.error (.truncated (pc + 1 + operands.length))) := by
        have := Stops.cutOff hdrop hcall hshort
        rwa [show code.length = pc + 1 + operands.length by omega] at this
      match operands with
      | [] => exact hcutOff Nat.two_pos
      | [_] => exact hcutOff Nat.one_lt_two
      | high :: low :: rest => exact .atCall hdrop hcall
    | false =>
      cases hn : length pc opcode operands with
      | error e => exact .noLength hdrop hcall hn
      | ok n =>
        rw [nextPc?_eq_some.2 ⟨opcode, operands, n, hdrop, hcall, hn, rfl⟩] at h
        cases h

/-- From any place the walk stops, with what the scan gives from there. -/
theorem exists_stops (code : Bytes) (pc : Nat) : ∃ pc', EndsAt (nextPc? code) pc pc' ∧
    Stops code pc' (firstInvocationFrom pc 0 (code.drop pc)) := by
  induction hleft : code.length - pc using Nat.strongRecOn generalizing pc with
  | ind left ih =>
    cases hnext : nextPc? code pc with
    | none => exact ⟨pc, .stop hnext, stops_of_nextPc?_eq_none hnext⟩
    | some next =>
      have ⟨opcode, operands, n, hdrop, _, hlength, heq⟩ := nextPc?_eq_some.1 hnext
      -- The next instruction stands further on, and this one does not stand at the end.
      have hpos := length_pos hlength
      have hleft' : code.length - pc = operands.length + 1 := by
        rw [← List.length_drop, hdrop, List.length_cons]
      obtain ⟨pc', hends, hstops⟩ := ih (code.length - next) (by omega) next rfl
      exact ⟨pc', .pass hnext hends, firstInvocationFrom_of_nextPc? hnext ▸ hstops⟩

/-! ### Boundaries between instructions -/

/-- What calls a method names it in the first two bytes behind the opcode. -/
theorem exists_operands_of_isInvocation (padding : Bytes) (h : isInvocation i.opcode) :
    ∃ high low rest, i.operands padding = high :: low :: rest ∧
      i.called? = some (Bytes.toUInt16 high low) := by
  cases i with
  | plain m operands hcount =>
    have hcalls : m.calls := m.isInvocation_opcode.symm.trans h
    match operands, Mnemonic.two_le_of_calls hcalls hcount with
    | high :: low :: rest, _ => exact ⟨high, low, rest, rfl, if_pos hcalls⟩
  | _ => cases h

/-- An instruction that is no call calls nothing. -/
theorem called?_eq_none (h : isInvocation i.opcode = false) : i.called? = none := by
  cases i with
  | plain m operands hcount =>
    have hcalls : m.calls = false := m.isInvocation_opcode.symm.trans h
    unfold called?
    split
    · next heq =>
      cases heq
      exact if_neg (Bool.eq_false_iff.1 hcalls)
    · rfl
  | _ => rfl

/-- The place is in front of an instruction of the row or behind them all, and none before it calls
a method. -/
def OnBoundary (instructions : List Instruction) (code : Bytes) (pc : Nat) : Prop :=
  ∃ before after, instructions = before ++ after ∧ (∀ i ∈ before, i.called? = none) ∧
    LaidOut pc after (code.drop pc)

/-- One step leads from an instruction to the next. -/
theorem OnBoundary.step (h : OnBoundary instructions code pc) (hnext : nextPc? code pc = some pc') :
    OnBoundary instructions code pc' := by
  obtain ⟨before, after, rfl, hbefore, hlaid⟩ := h
  obtain ⟨opcode, operands, n, hdrop, hcall, hlength, rfl⟩ := nextPc?_eq_some.1 hnext
  generalize hcode : code.drop pc = bytes at hlaid
  cases hlaid with
  | nil => cases hcode.symm.trans hdrop
  | @cons _ i rest code' padding hpadding hrest =>
    obtain ⟨rfl, rfl⟩ := List.cons.inj (hcode.symm.trans hdrop)
    -- The walk goes as far as the instruction is long.
    obtain rfl := Except.ok.inj ((length_of_paddedAt hpadding code').symm.trans hlength)
    refine ⟨before ++ [i], rest, by simp, ?_, ?_⟩
    · intro j hj
      rcases List.mem_append.1 hj with hj | hj
      · exact hbefore j hj
      · exact List.mem_singleton.1 hj ▸ called?_eq_none hcall
    · rwa [← List.drop_drop, hcode, List.drop_left]

/-- Where the walk stops on a boundary, the first call was found or there is none. -/
theorem OnBoundary.eq_of_stops {result : Except FormatError (Option UInt16)}
    (h : OnBoundary instructions code pc) (hstops : Stops code pc result) :
    result = .ok (instructions.findSome? called?) := by
  obtain ⟨before, after, rfl, hbefore, hlaid⟩ := h
  rw [List.findSome?_append, List.findSome?_eq_none_iff.2 hbefore, Option.none_or]
  generalize hcode : code.drop pc = bytes at hlaid
  cases hlaid with
  -- Behind the last instruction there is only the end.
  | nil =>
    cases hstops with
    | atEnd => rfl
    | atCall hdrop => cases hcode.symm.trans hdrop
    | cutOff hdrop => cases hcode.symm.trans hdrop
    | noLength hdrop => cases hcode.symm.trans hdrop
  -- In front of an instruction, which has a length and if it calls also its two bytes.
  | @cons _ i rest code' padding hpadding hrest =>
    cases hstops with
    | atEnd hle => cases (List.drop_eq_nil_of_le hle).symm.trans hcode
    | atCall hdrop hcall =>
      obtain ⟨rfl, hoperands⟩ := List.cons.inj (hcode.symm.trans hdrop)
      obtain ⟨high, low, _, heq, hcalled⟩ := exists_operands_of_isInvocation padding hcall
      rw [heq] at hoperands
      obtain ⟨rfl, hlow⟩ := List.cons.inj hoperands
      obtain ⟨rfl, -⟩ := List.cons.inj hlow
      rw [List.findSome?_cons, hcalled]
    | cutOff hdrop hcall hshort =>
      obtain ⟨rfl, rfl⟩ := List.cons.inj (hcode.symm.trans hdrop)
      obtain ⟨high, low, _, heq, -⟩ := exists_operands_of_isInvocation padding hcall
      simp only [heq, List.append_eq, List.cons_append, List.length_cons] at hshort
      omega
    | noLength hdrop hcall hlength =>
      obtain ⟨rfl, rfl⟩ := List.cons.inj (hcode.symm.trans hdrop)
      cases (length_of_paddedAt hpadding code').symm.trans hlength

end Instruction

namespace Code

open Instruction

/-- Over any body the walk stops, and the first call is what is found there. In a body that
instructions are laid out in, it is the first of these that calls a method, and the walk only ever
stands in front of one of them or behind them all. Any instructions can be laid out, with any opcode
there is. -/
theorem firstCall_of_laidOut :
    (∀ b : UInt8, (∃ i : Instruction, i.opcode = b) ↔ b.toNat ≤ 0xc9) ∧
    (∀ instructions, ∃ code, LaidOut 0 instructions code) ∧
    ∀ c : Code, (∃ pc, EndsAt (nextPc? c.code) 0 pc ∧ Stops c.code pc c.firstCall) ∧
      ∀ instructions, LaidOut 0 instructions c.code →
        c.firstCall = .ok (instructions.findSome? called?) ∧
        ∀ pc, Relation.ReflTransGen (fun a b => nextPc? c.code a = some b) 0 pc →
          OnBoundary instructions c.code pc := by
  refine ⟨Instruction.exists_opcode_eq_iff, exists_laidOut 0, fun c => ?_⟩
  obtain ⟨pc, hends, hstops⟩ := exists_stops c.code 0
  refine ⟨⟨pc, hends, hstops⟩, fun instructions hlaid => ?_⟩
  -- The walk starts on a boundary, and a step from a boundary leads to the next one.
  have hstart : OnBoundary instructions c.code 0 := ⟨[], instructions, rfl, nofun, hlaid⟩
  refine ⟨?_, fun pc hreach => ?_⟩
  · exact (hends.invariant (fun _ _ hnext h => h.step hnext) hstart).eq_of_stops hstops
  · induction hreach with
    | refl => exact hstart
    | tail _ hnext ih => exact ih.step hnext

/-- Bytes that look like calls in the padding and the table of a switch and in a wide index, before
a call. -/
def detour : List Instruction :=
  [.plain .nop [] rfl, .tableSwitch 0 0 0 [182] (by decide) (by decide), .wide .iload rfl 0xb8b8,
    .plain .invokestatic [0, 7] rfl, .plain .vreturn [] rfl]

/-- `detour` with two bytes of padding. -/
def detourBody : Code where
  maxStack := 1
  maxLocals := 1
  code := [0, 0xaa, 0xb6, 0xb6, 0, 0, 0, 0, 0, 0, 0, 0, 0, 0, 0, 0, 0, 0, 0, 182,
    0xc4, 0x15, 0xb8, 0xb8, 0xb8, 0, 7, 0xb1]

/-- The instructions are laid out as the body has them. -/
theorem laidOut_detour : LaidOut 0 detour detourBody.code :=
  .cons [] rfl <| .cons [0xb6, 0xb6] ⟨by decide, by decide⟩ <| .cons [] rfl <| .cons [] rfl <|
    .cons [] rfl .nil

theorem firstCall_of_laidOut_detour :
    LaidOut 0 detour detourBody.code ∧ detourBody.firstCall = .ok (some 7) :=
  ⟨laidOut_detour, ((firstCall_of_laidOut.2.2 detourBody).2 detour laidOut_detour).1⟩

end Code

end Relabel
