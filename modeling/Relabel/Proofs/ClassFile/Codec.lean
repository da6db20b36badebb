import Relabel.ClassFile.Basic
import Relabel.Proofs.Steps

/-!
# Reading back what was written

`Decoder.Reads` says that a decoder gives a value for a byte string, whatever follows it. Attributes,
bodies and tables of local variables read back as what was written. In the other direction, a
decoder only takes bytes off the front of its input, so a payload inside another is shorter.

## Main results

- `Attribute.reads_encodeList`, `Code.decode_encode`, `LocalVariable.decodeTable_encodeTable`:
  attributes, bodies and tables read back.
- `Attribute.length_lt_of_mem_decodeList`, `Code.length_lt_of_mem_attributes`: payloads inside a
  payload are shorter.
-/

namespace Relabel

namespace Decoder

variable {α β : Type}

/-- Decoding data gives what the decoder reads from it at the front. -/
theorem decode_eq_ok_iff {d : Decoder α} {data : Bytes} {a : α} :
    d.decode data = .ok a ↔ ∃ input, d { rest := data } = .ok a input := by
  rw [decode, EStateM.run]
  split
  · next b input hrun =>
    constructor
    · rintro ⟨⟩
      exact ⟨input, hrun⟩
    · rintro ⟨_, hrun'⟩
      obtain ⟨rfl, -⟩ := EStateM.Result.ok.inj (hrun.symm.trans hrun')
      rfl
  · next e input hrun =>
    refine iff_of_false (fun h => nomatch h) ?_
    rintro ⟨_, hrun'⟩
    cases hrun.symm.trans hrun'

/-! ### Reading back -/

/-- The decoder reads the bytes as the value, whatever follows them. -/
def Reads (d : Decoder α) (bytes : Bytes) (a : α) : Prop :=
  ∀ rest offset, ∃ offset', d { rest := bytes ++ rest, offset } = .ok a { rest, offset := offset' }

namespace Reads

/-- A form that is all there is decodes to its value. -/
theorem decode {d : Decoder α} {bytes : Bytes} {a : α} (h : d.Reads bytes a) :
    d.decode bytes = .ok a := by
  obtain ⟨offset', hrun⟩ := h [] 0
  rw [List.append_nil] at hrun
  exact decode_eq_ok_iff.2 ⟨_, hrun⟩

theorem pure (a : α) : (Pure.pure a : Decoder α).Reads [] a :=
  fun _ offset => ⟨offset, rfl⟩

/-- The form of the first value is followed by that of the second. -/
theorem bind {d : Decoder α} {f : α → Decoder β} {bytes bytes' : Bytes} {a : α} {b : β}
    (h : d.Reads bytes a) (h' : (f a).Reads bytes' b) : (d >>= f).Reads (bytes ++ bytes') b := by
  intro rest offset
  obtain ⟨offset₁, hd⟩ := h (bytes' ++ rest) offset
  obtain ⟨offset₂, hf⟩ := h' rest offset₁
  refine ⟨offset₂, ?_⟩
  rw [List.append_assoc]
  exact EStateM.bind_eq_ok.2 ⟨a, _, hd, hf⟩

/-- The last step of a decoder, after which nothing more is read. -/
theorem map {d : Decoder α} {f : α → β} {bytes : Bytes} {a : α} (h : d.Reads bytes a) :
    (do let a ← d; Pure.pure (f a) : Decoder β).Reads bytes (f a) := by
  have := h.bind (f := fun a => (Pure.pure (f a) : Decoder β)) (pure (f a))
  rwa [List.append_nil] at this

end Reads

theorem reads_u16 (x : UInt16) : u16.Reads (Bytes.ofUInt16 x) x :=
  fun rest offset => ⟨offset + 2, u16_append x rest offset⟩

theorem reads_u32 (x : UInt32) : u32.Reads (Bytes.ofUInt32 x) x :=
  fun rest offset => ⟨offset + 4, u32_append x rest offset⟩

theorem reads_bytes (taken : Bytes) : (bytes taken.length).Reads taken taken :=
  fun rest offset => ⟨offset + taken.length, bytes_append taken rest offset⟩

/-- A row of forms reads as the row of their values. -/
theorem reads_repeatFrom {d : Decoder α} {forms : List Bytes} {values : List α}
    (h : List.Forall₂ (fun a form => d.Reads form a) values forms) (read : Array α) :
    (repeatFrom d values.length read).Reads forms.flatten (read ++ values.toArray) := by
  induction h generalizing read with
  | nil => simpa [repeatFrom] using Reads.pure read
  | @cons a form values forms ha _ ih =>
    have hrest := ih (read.push a)
    rw [List.push_append_toArray] at hrest
    exact ha.bind (f := fun a => repeatFrom d values.length (read.push a)) hrest

/-- A count and a row of forms read as the row of values. -/
theorem reads_counted {d : Decoder α} {count : UInt16} {forms : List Bytes} {values : Array α}
    (hcount : count.toNat = values.size)
    (h : List.Forall₂ (fun a form => d.Reads form a) values.toList forms) :
    (counted d).Reads (Bytes.ofUInt16 count ++ forms.flatten) values := by
  refine (reads_u16 count).bind ?_
  have := reads_repeatFrom h #[]
  rw [hcount, ← Array.length_toList]
  simpa using this

/-- A count and a row of values that are each written in one form. -/
theorem reads_counted_flatMap {d : Decoder α} {form : α → Bytes} (h : ∀ a, d.Reads (form a) a)
    {count : UInt16} {values : Array α} (hcount : count.toNat = values.size) :
    (counted d).Reads (Bytes.ofUInt16 count ++ values.toList.flatMap form) values := by
  rw [List.flatMap_def]
  refine reads_counted hcount ?_
  rw [List.forall₂_map_right_iff]
  exact List.forall₂_same.2 fun a _ => h a

/-! ### Taking bytes off the front -/

/-- Nothing is put back in front of the input. -/
def Shrinks (d : Decoder α) : Prop :=
  ∀ input a input', d input = .ok a input' → input'.rest.length ≤ input.rest.length

/-- Two decoders one after the other leave no more than there was. -/
theorem Shrinks.bind {d : Decoder α} {f : α → Decoder β} (h : d.Shrinks)
    (h' : ∀ a, (f a).Shrinks) : (d >>= f).Shrinks := by
  intro input b input' hrun
  obtain ⟨a, input₁, hd, hf⟩ := EStateM.bind_eq_ok.1 hrun
  exact Nat.le_trans (h' a _ _ _ hf) (h _ _ _ hd)

theorem Shrinks.pure (a : α) : (Pure.pure a : Decoder α).Shrinks := by
  intro input b input' hrun
  obtain ⟨-, rfl⟩ := EStateM.pure_eq_ok.1 hrun
  exact Nat.le_refl _

/-- Two bytes are taken. -/
theorem length_of_u16 {input input' : Input} {x : UInt16} (h : u16 input = .ok x input') :
    input.rest.length = input'.rest.length + 2 := by
  unfold u16 at h
  split at h
  · next a b rest hrest =>
    obtain ⟨-, rfl⟩ := EStateM.Result.ok.inj h
    simp [hrest]
  · cases h

/-- Four bytes are taken. -/
theorem length_of_u32 {input input' : Input} {x : UInt32} (h : u32 input = .ok x input') :
    input.rest.length = input'.rest.length + 4 := by
  unfold u32 at h
  split at h
  · next a b c d rest hrest =>
    obtain ⟨-, rfl⟩ := EStateM.Result.ok.inj h
    simp [hrest]
  · cases h

/-- As many bytes are taken as are asked for. -/
theorem length_of_bytes {n : Nat} {input input' : Input} {taken : Bytes}
    (h : bytes n input = .ok taken input') :
    taken.length = n ∧ input.rest.length = input'.rest.length + n := by
  unfold bytes at h
  dsimp only at h
  split at h
  · next hlength =>
    obtain ⟨rfl, rfl⟩ := EStateM.Result.ok.inj h
    rw [List.length_take] at hlength
    simp only [List.length_take, List.length_drop]
    omega
  · cases h

theorem shrinks_u16 : u16.Shrinks := fun _ _ _ h => by
  have := length_of_u16 h
  omega

theorem shrinks_u32 : u32.Shrinks := fun _ _ _ h => by
  have := length_of_u32 h
  omega

theorem shrinks_bytes (n : Nat) : (bytes n).Shrinks := fun _ _ _ h => by
  have := length_of_bytes h
  omega

/-- However often a decoder is repeated, it leaves no more than there was. -/
theorem Shrinks.repeatFrom {d : Decoder α} (h : d.Shrinks) (n : Nat) (read : Array α) :
    (repeatFrom d n read).Shrinks := by
  induction n generalizing read with
  | zero => exact .pure read
  | succ n ih => exact h.bind fun a => ih (read.push a)

theorem Shrinks.counted {d : Decoder α} (h : d.Shrinks) : (counted d).Shrinks :=
  shrinks_u16.bind fun n => h.repeatFrom n.toNat #[]

end Decoder

/-! ### Writing -/

/-- A count that can be written reads as the number it stands for. -/
theorem encodeCount_ok {part : SizedPart} {n : Nat} {bytes : Bytes}
    (h : encodeCount part n = .ok bytes) :
    ∃ count : UInt16, count.toNat = n ∧ bytes = Bytes.ofUInt16 count := by
  unfold encodeCount at h
  split at h
  · next hn => exact ⟨n.toUInt16, UInt16.toNat_ofNat_of_lt' hn, (Except.ok.inj h).symm⟩
  · cases h

/-- A length that is written has 32 bits. -/
theorem encodeLength_ok {part : SizedPart} {n : Nat} {bytes : Bytes}
    (h : encodeLength part n = .ok bytes) :
    ∃ length : UInt32, length.toNat = n ∧ bytes = Bytes.ofUInt32 length := by
  unfold encodeLength at h
  split at h
  · next hn => exact ⟨n.toUInt32, UInt32.toNat_ofNat_of_lt' hn, (Except.ok.inj h).symm⟩
  · cases h

/-- The forms of all values read back as the values, if each of them does. -/
theorem reads_counted_encodeAll {α : Type} {d : Decoder α} {encode : α → Except FormatError Bytes}
    {count : UInt16} {values : Array α} {bytes : Bytes}
    (hd : ∀ a form, encode a = .ok form → d.Reads form a) (hcount : count.toNat = values.size)
    (h : encodeAll encode values = .ok bytes) :
    (Decoder.counted d).Reads (Bytes.ofUInt16 count ++ bytes) values := by
  simp only [encodeAll, Except.bind_eq_ok, Except.pure_eq_ok] at h
  obtain ⟨forms, hforms, rfl⟩ := h
  refine Decoder.reads_counted hcount ((forall₂_of_mapM_eq_ok hforms).imp ?_)
  exact fun a form ha => hd a form ha

/-! ### Attributes -/

namespace Attribute

/-- An attribute is read from its form. -/
theorem reads_encode {a : Attribute} {bytes : Bytes} (h : a.encode = .ok bytes) :
    decode.Reads bytes a := by
  simp only [encode, Except.bind_eq_ok, Except.pure_eq_ok] at h
  obtain ⟨form, hform, rfl⟩ := h
  obtain ⟨length, hlength, rfl⟩ := encodeLength_ok hform
  rw [List.append_assoc]
  refine (Decoder.reads_u16 a.nameIndex).bind ((Decoder.reads_u32 length).bind ?_)
  rw [hlength]
  exact (Decoder.reads_bytes a.data).map

/-- A list of attributes reads back. -/
theorem reads_encodeList {part : SizedPart} {attributes : Array Attribute} {bytes : Bytes}
    (h : encodeList part attributes = .ok bytes) : decodeList.Reads bytes attributes := by
  simp only [encodeList, Except.bind_eq_ok, Except.pure_eq_ok] at h
  obtain ⟨_, hform, forms, hforms, rfl⟩ := h
  obtain ⟨count, hcount, rfl⟩ := encodeCount_ok hform
  exact reads_counted_encodeAll (fun _ _ => reads_encode) hcount hforms

/-- The data of an attribute is shorter than what it is read from. -/
theorem length_of_decode {input input' : Input} {a : Attribute}
    (h : decode input = .ok a input') : a.data.length + input'.rest.length < input.rest.length := by
  simp only [decode, EStateM.bind_eq_ok, EStateM.pure_eq_ok] at h
  obtain ⟨nameIndex, input₁, hname, length, input₂, hlength, data, _, hdata, rfl, rfl⟩ := h
  have h₁ := Decoder.length_of_u16 hname
  have h₂ := Decoder.length_of_u32 hlength
  have h₃ := Decoder.length_of_bytes hdata
  dsimp only
  omega

theorem shrinks_decodeList : decodeList.Shrinks :=
  Decoder.Shrinks.counted fun _ _ _ h => by
    have := length_of_decode h
    omega

/-- An attribute that is read anew has less data than there was. -/
private theorem length_lt_of_mem_repeatFrom {n : Nat} {input input' : Input}
    {read attributes : Array Attribute}
    (h : Decoder.repeatFrom decode n read input = .ok attributes input') {a : Attribute}
    (ha : a ∈ attributes) : a ∈ read ∨ a.data.length < input.rest.length := by
  induction n generalizing read input with
  | zero =>
    obtain ⟨rfl, -⟩ := EStateM.pure_eq_ok.1 h
    exact .inl ha
  | succ n ih =>
    simp only [Decoder.repeatFrom, EStateM.bind_eq_ok] at h
    obtain ⟨b, input₁, hb, h⟩ := h
    have hlength := length_of_decode hb
    -- The attributes behind it are read from what this one leaves, which is less than there was.
    rcases ih h with hread | hlt
    · rcases Array.mem_push.1 hread with hread | rfl
      · exact .inl hread
      · right; omega
    · right; omega

/-- The payload of an attribute is shorter than what it is read from. -/
theorem length_lt_of_mem_decodeList {input input' : Input} {attributes : Array Attribute}
    (h : decodeList input = .ok attributes input') {a : Attribute} (ha : a ∈ attributes) :
    a.data.length < input.rest.length := by
  simp only [decodeList, Decoder.counted, EStateM.bind_eq_ok] at h
  obtain ⟨count, input₁, hcount, h⟩ := h
  have hlength := Decoder.length_of_u16 hcount
  rcases length_lt_of_mem_repeatFrom h ha with hread | hlt
  · simp at hread
  · omega

end Attribute

/-! ### Bodies -/

/-- An exception handler is read from its form. -/
theorem Handler.reads_encode (e : Handler) : Handler.decode.Reads e.encode e := by
  simp only [encode, List.append_assoc]
  refine (Decoder.reads_u16 _).bind ((Decoder.reads_u16 _).bind ((Decoder.reads_u16 _).bind ?_))
  exact (Decoder.reads_u16 e.catchType).map

theorem Handler.shrinks_decode : Handler.decode.Shrinks :=
  Decoder.shrinks_u16.bind fun _ => Decoder.shrinks_u16.bind fun _ =>
    Decoder.shrinks_u16.bind fun _ => Decoder.shrinks_u16.bind fun _ => .pure _

namespace Code

/-- A body is read from its form. -/
theorem reads_encode {c : Code} {data : Bytes} (h : c.encode = .ok data) :
    decoder.Reads data c := by
  simp only [encode, Except.bind_eq_ok, Except.pure_eq_ok] at h
  obtain ⟨_, hlengthForm, _, hcountForm, forms, hforms, rfl⟩ := h
  obtain ⟨length, hlength, rfl⟩ := encodeLength_ok hlengthForm
  obtain ⟨count, hcount, rfl⟩ := encodeCount_ok hcountForm
  -- Handlers are counted and written one after the other, and so they read back.
  have hexceptions : (Decoder.counted Handler.decode).Reads
      (Bytes.ofUInt16 count ++ c.exceptions.toList.flatMap Handler.encode) c.exceptions :=
    Decoder.reads_counted_flatMap Handler.reads_encode hcount
  simp only [List.append_assoc]
  rw [← List.append_assoc (Bytes.ofUInt16 count)]
  refine (Decoder.reads_u16 c.maxStack).bind ((Decoder.reads_u16 c.maxLocals).bind ?_)
  refine (Decoder.reads_u32 length).bind ?_
  rw [hlength]
  refine (Decoder.reads_bytes c.code).bind (hexceptions.bind ?_)
  exact (Attribute.reads_encodeList hforms).map

/-- A body reads back. -/
theorem decode_encode {c : Code} {data : Bytes} (h : c.encode = .ok data) :
    decode data = .ok c :=
  (reads_encode h).decode

/-- The payloads inside a body are shorter than that of the body. -/
theorem length_lt_of_mem_attributes {data : Bytes} {c : Code} (h : decode data = .ok c)
    {a : Attribute} (ha : a ∈ c.attributes) : a.data.length < data.length := by
  obtain ⟨input, hrun⟩ := Decoder.decode_eq_ok_iff.1 h
  simp only [decoder, EStateM.bind_eq_ok, EStateM.pure_eq_ok] at hrun
  obtain ⟨_, i₁, h₁, _, i₂, h₂, _, i₃, h₃, _, i₄, h₄, _, i₅, h₅, _, _, h₆, rfl, rfl⟩ := hrun
  -- Everything in front of the attributes takes bytes off the payload.
  have hlt := Attribute.length_lt_of_mem_decodeList h₆ ha
  have hle₁ := Decoder.shrinks_u16 _ _ _ h₁
  have hle₂ := Decoder.shrinks_u16 _ _ _ h₂
  have hle₃ := Decoder.shrinks_u32 _ _ _ h₃
  have hle₄ := Decoder.shrinks_bytes _ _ _ _ h₄
  have hle₅ := Handler.shrinks_decode.counted _ _ _ h₅
  dsimp only at hle₁
  omega

end Code

/-! ### Tables of local variables -/

namespace LocalVariable

/-- An entry of a table is read from its form. -/
theorem reads_encode (v : LocalVariable) : decoder.Reads v.encode v := by
  simp only [encode, List.append_assoc]
  refine (Decoder.reads_u16 _).bind ((Decoder.reads_u16 _).bind ((Decoder.reads_u16 _).bind ?_))
  exact (Decoder.reads_u16 _).bind (Decoder.reads_u16 v.index).map

/-- A table is read from its form. -/
theorem reads_encodeTable {table : Array LocalVariable} {data : Bytes}
    (h : encodeTable table = .ok data) : (Decoder.counted decoder).Reads data table := by
  simp only [encodeTable, Except.bind_eq_ok, Except.pure_eq_ok] at h
  obtain ⟨_, hform, rfl⟩ := h
  obtain ⟨count, hcount, rfl⟩ := encodeCount_ok hform
  exact Decoder.reads_counted_flatMap reads_encode hcount

/-- A table reads back. -/
theorem decodeTable_encodeTable {table : Array LocalVariable} {data : Bytes}
    (h : encodeTable table = .ok data) : decodeTable data = .ok table :=
  (reads_encodeTable h).decode

end LocalVariable

namespace ClassFile

/-- A class that can be written has slots that indices reach. -/
theorem size_lt_of_encode {c : ClassFile} {bytes : Bytes} (h : c.encode = .ok bytes) :
    c.pool.size < 65536 := by
  simp only [encode, Pool.encode, Except.bind_eq_ok] at h
  obtain ⟨_, ⟨count, hcount, -⟩, -⟩ := h
  unfold encodeCount at hcount
  split at hcount
  · assumption
  · cases hcount

end ClassFile

end Relabel
