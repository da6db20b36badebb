import Relabel.Renaming.Scope

/-!
# Patching payloads

A payload is read from front to back and written with some of its indices replaced. An index is put
in the place of an index, so the length stays; only attributes inside a payload may change theirs.
-/

namespace Relabel

/-- How far a payload is read, and what is written so far, in reverse. -/
structure PatchState where
  input : Input
  written : Bytes := []

/-- A step of reading a payload and writing it anew. -/
abbrev Patch := StateT PatchState PoolM

namespace Patch

/-- Reads without writing. -/
def read (d : Decoder α) : Patch α := fun state pool =>
  match d state.input with
  | .ok a input => .ok (a, { state with input }) pool
  | .error e _ => .error e pool

/-- Writes bytes. -/
def write (bytes : Bytes) : Patch Unit :=
  modify fun state => { state with written := bytes.reverse ++ state.written }

/-- Writes an index. -/
def write16 (i : UInt16) : Patch Unit :=
  write (Bytes.ofUInt16 i)

/-- Reads and writes one byte. -/
def copy8 : Patch UInt8 := do
  let b ← read Decoder.u8
  write [b]
  return b

/-- Reads and writes a 16-bit number. -/
def copy16 : Patch UInt16 := do
  let i ← read Decoder.u16
  write16 i
  return i

/-- Reads and writes `n` bytes. -/
def copy (n : Nat) : Patch Unit := do
  write (← read (Decoder.bytes n))

/-- Does something `n` times. -/
def times (act : Patch Unit) : Nat → Patch Unit
  | 0 => pure ()
  | n + 1 => do
    act
    times act n

/-- Copies a 16-bit count and does something as many times. -/
def counted (act : Patch Unit) : Patch Unit := do
  let n ← copy16
  times act n.toNat

/-- The bytes left to read. -/
def bytesLeft : Patch Nat := do
  return (← get).input.rest.length

/-- What is written for a payload, without what is not read of it. -/
def runFront (act : Patch Unit) (data : Bytes) : PoolM Bytes := do
  let (_, state) ← StateT.run act { input := { rest := data } }
  return state.written.reverse

/-- A payload with its front patched and the rest as it is. -/
def run (act : Patch Unit) (data : Bytes) : PoolM Bytes := do
  let (_, state) ← StateT.run act { input := { rest := data } }
  return state.written.reverse ++ state.input.rest

end Patch

end Relabel
