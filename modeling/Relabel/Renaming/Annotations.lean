import Relabel.Renaming.Patch

/-!
# Renaming in annotations

Annotations name their types, their elements, the constants of enumerations and class literals; all
of these follow the renaming. Values nest: an element may hold a list of values or an annotation.
Every value takes at least one byte, so the bytes left bound the depth.
-/

namespace Relabel.Scope

open Patch

/-- Copies the new form of a descriptor and gives the old one. -/
def patchDesc (s : Scope) : Patch String := do
  let i ← read Decoder.u16
  let old ← s.text i
  write16 (← s.mapDescriptor i)
  return old

/-- Copies the constant of an enumeration: its type and its name. -/
def patchEnum (s : Scope) : Patch Unit := do
  let typeIndex ← read Decoder.u16
  let nameIndex ← read Decoder.u16
  let type ← s.text typeIndex
  let name ← s.text nameIndex
  let newName := (Descriptor.className? type).bind fun owner =>
    s.names.mapField { owner, name, desc := type }
  let newNameIndex ← newIndex newName nameIndex
  write16 (← s.mapDescriptor typeIndex)
  write16 newNameIndex

mutual

/-- Copies an annotation: its type, then its elements with their values. -/
def patchAnnotation (s : Scope) : Nat → Patch Unit
  | 0 => read Decoder.stop
  | depth + 1 => do
    let type ← s.patchDesc
    counted do
      let i ← read Decoder.u16
      let name ← s.text i
      write16 (← newIndex (s.names.mapElement type name) i)
      s.patchValue depth

/-- Copies the value of an element. -/
def patchValue (s : Scope) : Nat → Patch Unit
  | 0 => read Decoder.stop
  | depth + 1 => do
    let tag ← copy8
    match Char.ofNat tag.toNat with
    | 'B' | 'C' | 'D' | 'F' | 'I' | 'J' | 'S' | 'Z' | 's' => discard copy16
    | 'e' => s.patchEnum
    | 'c' => discard s.patchDesc
    | '@' => s.patchAnnotation depth
    | '[' => counted (s.patchValue depth)
    | _ => read Decoder.stop

end

/-- Copies where a type annotation stands: the kind of place with its details, and the path into the
type. -/
def patchTarget : Patch Unit := do
  let kind := (← copy8).toNat
  if kind = 0x00 ∨ kind = 0x01 ∨ kind = 0x16 then copy 1
  else if kind = 0x10 ∨ kind = 0x11 ∨ kind = 0x12 ∨ kind = 0x17 ∨ (0x42 ≤ kind ∧ kind ≤ 0x46) then
    copy 2
  else if 0x13 ≤ kind ∧ kind ≤ 0x15 then pure ()
  else if 0x47 ≤ kind ∧ kind ≤ 0x4b then copy 3
  else if kind = 0x40 ∨ kind = 0x41 then
    let entries ← copy16
    copy (6 * entries.toNat)
  else read Decoder.stop
  let path ← copy8
  copy (2 * path.toNat)

/-- Patches a list of annotations. -/
def patchAnnotations (s : Scope) : Patch Unit := do
  let depth ← bytesLeft
  counted (s.patchAnnotation (depth + 1))

/-- Patches lists of annotations, one for each parameter. -/
def patchParameterAnnotations (s : Scope) : Patch Unit := do
  let depth ← bytesLeft
  let params ← copy8
  times (counted (s.patchAnnotation (depth + 1))) params.toNat

/-- Patches a list of type annotations. -/
def patchTypeAnnotations (s : Scope) : Patch Unit := do
  let depth ← bytesLeft
  counted do
    patchTarget
    s.patchAnnotation (depth + 1)

/-- Patches the default value of an element. -/
def patchDefault (s : Scope) : Patch Unit := do
  let depth ← bytesLeft
  s.patchValue (depth + 1)

end Relabel.Scope
