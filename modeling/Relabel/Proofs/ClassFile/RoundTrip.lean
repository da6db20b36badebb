import Relabel.Proofs.ClassFile.ModifiedUtf8
import Relabel.Proofs.ClassFile.WellFormed

/-!
# Classes read back

Every entry of a pool reads back as what was written for it, and slots that are laid out are filled
again in the same order: a wide entry brings the free slot behind it along. With the members and
attributes, which are written with their counts, the whole of a well-formed class reads back.

## Main results

- `Constant.reads_encode`: one entry.
- `Pool.reads_decodeSlots`: the slots from one on, by induction over the entries that are left.
- `ClassFile.decode_encode`: a class.
-/

namespace Relabel

/-- The halves of a 64-bit number put together are the number. -/
theorem Bytes.toUInt64_halves (x : UInt64) :
    Bytes.toUInt64 (x >>> 32).toUInt32 x.toUInt32 = x := by
  have h := x.toNat_lt
  have hhigh : (x >>> 32).toUInt32.toNat = x.toNat / 2 ^ 32 := by
    simp [Nat.shiftRight_eq_div_pow]
    omega
  have hlow : x.toUInt32.toNat < 2 ^ 32 := x.toUInt32.toNat_lt
  have hshift : ((x >>> 32).toUInt32.toUInt64 <<< 32).toNat = (x.toNat / 2 ^ 32) <<< 32 := by
    rw [UInt64.toNat_shiftLeft, UInt32.toNat_toUInt64, hhigh, Nat.shiftLeft_eq, Nat.shiftLeft_eq]
    exact Nat.mod_eq_of_lt (by simp; omega)
  apply UInt64.toNat_inj.1
  rw [Bytes.toUInt64, UInt64.toNat_or, hshift, UInt32.toNat_toUInt64,
    ← Nat.shiftLeft_add_eq_or_of_lt hlow, Nat.shiftLeft_eq, UInt64.toNat_toUInt32]
  omega

namespace Decoder

/-- The last step of a decoder, which depends on what was read. -/
theorem Reads.bind_pure {α β : Type} {d : Decoder α} {f : α → Decoder β} {bytes : Bytes} {a : α}
    {b : β} (h : d.Reads bytes a) (hf : f a = Pure.pure b) : (d >>= f).Reads bytes b := by
  have hread := h.bind (show (f a).Reads [] b from hf ▸ .pure b)
  rwa [List.append_nil] at hread

theorem reads_u8 (b : UInt8) : u8.Reads [b] b :=
  fun rest offset => ⟨offset + 1, u8_cons b rest offset⟩

/-- Eight bytes read back as the number that they hold. -/
theorem reads_u64 (x : UInt64) : u64.Reads (Bytes.ofUInt64 x) x := by
  have h := (reads_u32 (x >>> 32).toUInt32).bind (f := fun high => do
    let low ← u32
    pure (Bytes.toUInt64 high low)) (reads_u32 x.toUInt32).map
  rwa [Bytes.toUInt64_halves] at h

end Decoder

namespace Constant

open Decoder

/-- A pair of indices reads back. -/
theorem reads_decodePair (make : UInt16 → UInt16 → Constant) (a b : UInt16) :
    (decodePair make).Reads (Bytes.ofUInt16 a ++ Bytes.ofUInt16 b) (make a b) :=
  (reads_u16 a).bind (reads_u16 b).map

/-- A text behind its length reads as its bytes do. -/
theorem reads_decodeUtf8 {i length : UInt16} {raw : Bytes} {c : Constant}
    (hlength : length.toNat = raw.length)
    (hraw : (match ModifiedUtf8.decode? raw with
      | some { text, exact := true } => pure (.utf8 text)
      | some { text, exact := false } => pure (.lossyUtf8 text raw)
      | none => throw (.badUtf8 i) : Decoder Constant) = pure c) :
    (decodeUtf8 i).Reads (Bytes.ofUInt16 length ++ raw) c := by
  refine (reads_u16 length).bind ?_
  rw [hlength]
  exact (reads_bytes raw).bind_pure hraw

/-- The form of an entry reads back. -/
theorem reads_encode {c : Constant} (hc : c.Entry) {i : UInt16} {form : Bytes}
    (h : c.encode i = .ok form) : (decode i).Reads form c := by
  cases c with
  | unusable => exact hc.elim
  -- The tag is a byte in front, and each kind of constant reads back what is behind its own.
  | utf8 text =>
    simp only [encode] at h
    split at h
    · next hlt =>
      obtain rfl := Except.ok.inj h
      refine (reads_u8 1).bind (reads_decodeUtf8 (UInt16.toNat_ofNat_of_lt' hlt) ?_)
      rw [ModifiedUtf8.decode?_encode]
    · cases h
  | lossyUtf8 text raw =>
    simp only [encode, Except.bind_eq_ok, Except.pure_eq_ok] at h
    obtain ⟨_, hcount, rfl⟩ := h
    obtain ⟨length, hlength, rfl⟩ := encodeCount_ok hcount
    refine (reads_u8 1).bind (reads_decodeUtf8 hlength ?_)
    rw [show ModifiedUtf8.decode? raw = _ from hc]
  | integer value =>
    obtain rfl := Except.ok.inj h
    exact (reads_u8 3).bind (reads_u32 value.toUInt32).map
  | float bits =>
    obtain rfl := Except.ok.inj h
    exact (reads_u8 4).bind (reads_u32 bits).map
  | long value =>
    obtain rfl := Except.ok.inj h
    exact (reads_u8 5).bind (reads_u64 value.toUInt64).map
  | double bits =>
    obtain rfl := Except.ok.inj h
    exact (reads_u8 6).bind (reads_u64 bits).map
  | ofClass name =>
    obtain rfl := Except.ok.inj h
    exact (reads_u8 7).bind (reads_u16 name).map
  | string value =>
    obtain rfl := Except.ok.inj h
    exact (reads_u8 8).bind (reads_u16 value).map
  | member kind owner names =>
    obtain rfl := Except.ok.inj h
    cases kind with
    | field => exact (reads_u8 9).bind (reads_decodePair (.member .field) owner names)
    | method => exact (reads_u8 10).bind (reads_decodePair (.member .method) owner names)
    | interfaceMethod =>
      exact (reads_u8 11).bind (reads_decodePair (.member .interfaceMethod) owner names)
  | nameAndType name desc =>
    obtain rfl := Except.ok.inj h
    exact (reads_u8 12).bind (reads_decodePair .nameAndType name desc)
  | methodHandle kind reference =>
    obtain rfl := Except.ok.inj h
    exact (reads_u8 15).bind ((reads_u8 kind).bind (reads_u16 reference).map)
  | methodType desc =>
    obtain rfl := Except.ok.inj h
    exact (reads_u8 16).bind (reads_u16 desc).map
  | dynamic bootstrap names =>
    obtain rfl := Except.ok.inj h
    exact (reads_u8 17).bind (reads_decodePair .dynamic bootstrap names)
  | invokeDynamic bootstrap names =>
    obtain rfl := Except.ok.inj h
    exact (reads_u8 18).bind (reads_decodePair .invokeDynamic bootstrap names)
  | ofModule name =>
    obtain rfl := Except.ok.inj h
    exact (reads_u8 19).bind (reads_u16 name).map
  | ofPackage name =>
    obtain rfl := Except.ok.inj h
    exact (reads_u8 20).bind (reads_u16 name).map

/-- The form of an entry has at least its tag. -/
theorem length_pos_of_encode {c : Constant} (hc : c.Entry) {i : UInt16} {form : Bytes}
    (h : c.encode i = .ok form) : 0 < form.length := by
  refine List.length_pos_iff.2 fun hnil => ?_
  subst hnil
  -- Nothing is read from no bytes.
  obtain ⟨offset, hrun⟩ := reads_encode hc h [] 0
  cases hrun

end Constant

namespace Pool

open Decoder

variable {slots : Array Constant} {c : Constant} {k : Nat}

/-- The entries from a slot on begin with what it holds. -/
private theorem drop_zipIdx_eq_cons (h : slots[k]? = some c) :
    slots.toList.zipIdx.drop k = (c, k) :: slots.toList.zipIdx.drop (k + 1) := by
  obtain ⟨hk, rfl⟩ := Array.getElem?_eq_some_iff.1 h
  rw [List.drop_eq_getElem_cons (by simpa using hk), List.getElem_zipIdx]
  simp

/-- The slots up to one and the one itself are those up to the next. -/
private theorem push_extract (h : slots[k]? = some c) :
    (slots.extract 0 k).push c = slots.extract 0 (k + 1) := by
  obtain ⟨hk, rfl⟩ := Array.getElem?_eq_some_iff.1 h
  exact (Array.extract_succ_right (Nat.succ_pos k) hk).symm

/-- The numbers of slots, and of the end of a pool, compare as indices do. -/
private theorem toUInt16_lt_iff {count : UInt16} {size : Nat} (hcount : count.toNat = size)
    (hk : k ≤ size) : k.toUInt16 < count ↔ k < size := by
  have hsize : size < 65536 := hcount ▸ count.toNat_lt
  rw [UInt16.lt_iff_toNat_lt, toNat_toUInt16_of_lt (Nat.lt_of_le_of_lt hk hsize), hcount]

/-- Slots that are laid out are filled from one on by the forms of their entries. -/
theorem reads_decodeSlots (hslots : LaidOut slots) {count : UInt16}
    (hcount : count.toNat = slots.size) {fuel : Nat} {forms : List Bytes} (hk : k ≤ slots.size)
    (hnext : slots[k]? ≠ some .unusable)
    (hforms : List.Forall₂ (fun entry form => entry.1.encode entry.2.toUInt16 = .ok form)
      (slots.toList.zipIdx.drop k) forms)
    (hfuel : forms.flatten.length < fuel) :
    (decodeSlots count fuel k.toUInt16 (slots.extract 0 k)).Reads forms.flatten slots := by
  induction fuel generalizing k forms with
  | zero => exact absurd hfuel (Nat.not_lt_zero _)
  | succ fuel ih =>
    unfold decodeSlots
    cases hget : slots[k]? with
    | none =>
      -- All slots are filled, and no form is left.
      have hle := Array.getElem?_eq_none_iff.1 hget
      rw [List.drop_eq_nil_of_le (by simpa using hle)] at hforms
      cases hforms
      have hall : slots.extract 0 k = slots := Array.extract_eq_self_of_le hle
      rw [if_neg (mt (toUInt16_lt_iff hcount hk).1 (Nat.not_lt.2 hle)), hall]
      exact .pure slots
    | some c =>
      rw [hget] at hnext
      have hlt := lt_size_of_getElem? (p := { slots }) hget
      rw [drop_zipIdx_eq_cons hget] at hforms
      cases hforms with
      | @cons _ form _ forms hform hforms =>
        have hentry := hslots.entry hget fun heq => hnext (by rw [heq])
        have hpos := Constant.length_pos_of_encode hentry hform
        rw [List.flatten_cons, List.length_append] at hfuel
        rw [if_pos ((toUInt16_lt_iff hcount hk).2 hlt), List.flatten_cons]
        refine (Constant.reads_encode hentry hform).bind ?_
        rw [push_extract hget]
        split
        · next hwide =>
          -- The free slot behind a wide entry has no form of its own.
          have hfree := (hslots.wide k).2 ⟨c, hget, hwide⟩
          rw [drop_zipIdx_eq_cons hfree] at hforms
          cases hforms with
          | @cons _ free _ forms hform' hforms =>
            obtain rfl := Except.ok.inj hform'
            have hnumber : k.toUInt16 + 2 = (k + 1 + 1).toUInt16 := (UInt16.ofNat_add k 2).symm
            rw [List.flatten_cons, List.nil_append] at hfuel ⊢
            rw [push_extract hfree, hnumber]
            refine ih (lt_size_of_getElem? (p := { slots }) hfree) ?_ hforms (by omega)
            exact hslots.ne_unusable_of_narrow hfree rfl
        · next hnarrow =>
          have hnumber : k.toUInt16 + 1 = (k + 1).toUInt16 := (UInt16.ofNat_add k 1).symm
          rw [hnumber]
          refine ih hlt ?_ hforms (by omega)
          exact hslots.ne_unusable_of_narrow hget (Bool.eq_false_iff.2 hnarrow)

/-- A pool reads back as its slots, with no index. -/
theorem reads_encode {pool : Pool} (hpool : LaidOut pool.slots) {bytes : Bytes}
    (h : pool.encode = .ok bytes) : decode.Reads bytes { slots := pool.slots } := by
  simp only [encode, Except.bind_eq_ok, Except.pure_eq_ok] at h
  obtain ⟨_, hform, forms, hforms, rfl⟩ := h
  obtain ⟨count, hcount, rfl⟩ := encodeCount_ok hform
  have hone := lt_size_of_getElem? hpool.first
  refine (reads_u16 count).bind fun rest offset => ?_
  -- There are as many bytes to spend as are left, and no form takes more than it has.
  have hfuel : forms.flatten.length < (forms.flatten ++ rest).length + 1 := by
    rw [List.length_append]
    omega
  have hfirst : pool.slots.extract 0 1 = #[.unusable] := by
    rw [← push_extract hpool.first, Array.extract_zero]
    rfl
  have hread := reads_decodeSlots (k := 1) hpool hcount hone
    (hpool.ne_unusable_of_narrow hpool.first rfl) (forall₂_of_mapM_eq_ok hforms) hfuel rest offset
  rw [hfirst] at hread
  obtain ⟨offset', hrun⟩ := hread
  exact ⟨offset', EStateM.bind_eq_ok.2 ⟨_, _, rfl, EStateM.bind_eq_ok.2 ⟨_, _, hrun, rfl⟩⟩⟩

end Pool

/-! ### Members and classes -/

namespace MemberInfo

open Decoder

/-- A member reads back. -/
theorem reads_encode {m : MemberInfo} {bytes : Bytes} (h : m.encode = .ok bytes) :
    decode.Reads bytes m := by
  simp only [encode, Except.bind_eq_ok, Except.pure_eq_ok] at h
  obtain ⟨attributes, hattributes, rfl⟩ := h
  simp only [List.append_assoc]
  refine (reads_u16 m.access.bits).bind ((reads_u16 m.nameIndex).bind ?_)
  exact (reads_u16 m.descIndex).bind (Attribute.reads_encodeList hattributes).map

/-- A table of members reads back. -/
theorem reads_encodeList {members : Array MemberInfo} {bytes : Bytes}
    (h : encodeList members = .ok bytes) : (counted decode).Reads bytes members := by
  simp only [encodeList, Except.bind_eq_ok, Except.pure_eq_ok] at h
  obtain ⟨_, hform, forms, hforms, rfl⟩ := h
  obtain ⟨count, hcount, rfl⟩ := encodeCount_ok hform
  exact reads_counted_encodeAll (fun _ _ => reads_encode) hcount hforms

end MemberInfo

namespace ClassFile

open Decoder

/-- A class as it is read: nothing was searched for in its pool. -/
def withoutIndex (c : ClassFile) : ClassFile :=
  { c with pool := { slots := c.pool.slots } }

/-- A class file reads back, apart from the search index of its pool. -/
theorem reads_encode {c : ClassFile} (hc : Pool.LaidOut c.pool.slots) {bytes : Bytes}
    (h : c.encode = .ok bytes) : decoder.Reads bytes c.withoutIndex := by
  simp only [encode, Except.bind_eq_ok, Except.pure_eq_ok] at h
  obtain ⟨pool, hpool, _, hform, fields, hfields, methods, hmethods, attributes, hattributes,
    rfl⟩ := h
  obtain ⟨count, hcount, rfl⟩ := encodeCount_ok hform
  have hinterfaces : (counted u16).Reads
      (Bytes.ofUInt16 count ++ c.interfaces.toList.flatMap Bytes.ofUInt16) c.interfaces := by
    rw [List.flatMap_def]
    refine reads_counted hcount ?_
    rw [List.forall₂_map_right_iff]
    exact List.forall₂_same.2 fun x _ => reads_u16 x
  simp only [List.append_assoc]
  rw [← List.append_assoc (Bytes.ofUInt16 count)]
  -- The parts follow in the order in which they are written.
  refine (reads_u32 magic).bind ?_
  rw [if_neg (not_not_intro rfl)]
  refine (reads_u16 c.minorVersion).bind ((reads_u16 c.majorVersion).bind ?_)
  refine (Pool.reads_encode hc hpool).bind ((reads_u16 c.access.bits).bind ?_)
  refine (reads_u16 c.thisClass).bind ((reads_u16 c.superClass).bind (hinterfaces.bind ?_))
  refine (MemberInfo.reads_encodeList hfields).bind ((MemberInfo.reads_encodeList hmethods).bind ?_)
  exact (Attribute.reads_encodeList hattributes).map

/-- A well-formed class reads back. -/
theorem decode_encode {c : ClassFile} (hc : c.WellFormed) {bytes : Bytes}
    (h : c.encode = .ok bytes) : decode bytes = .ok c.withoutIndex := by
  obtain ⟨offset, hrun⟩ := reads_encode hc.laidOut h [] 0
  obtain ⟨name, hname⟩ := hc.named
  have hname' : c.withoutIndex.name = .ok name := hname
  rw [List.append_nil] at hrun
  simp only [decode, hrun, List.isEmpty_nil, if_true, hname']
  rfl

end ClassFile

end Relabel
