import Relabel.Proofs.ClassFile.Exactness

/-!
# The forms of bodies and of their tables

A payload may be followed by bytes that its decoder leaves, `Decoder.unread`. A decoder that reads
back what is written, and takes nothing else off its input, finds a value exactly where the form of
the value stands in front. Method bodies and tables of local variables are read so, and a body or a
table has a form when its counts and lengths fit the numbers they are written as.

## Main results

- `Decoder.decode_and_unread_iff`: where a value is read, and what is left behind it.
- `Code.exists_encode_iff`, `LocalVariable.exists_encodeTable_iff`: what can be written.
- `ClassFile.exact_payloads`: both payloads.
-/

namespace Relabel

namespace Decoder

variable {α : Type} {d : Decoder α} {P : α → Bytes → Prop} {a : α} {bytes data rest : Bytes}
  {input : Input}

/-- The bytes of a string that the decoder leaves. -/
def unread (d : Decoder α) (data : Bytes) : Bytes :=
  match d.run { rest := data } with
  | .ok _ input => input.rest
  | .error _ input => input.rest

/-- What is left unread is what the decoder has not taken. -/
theorem unread_of_eq_ok (h : d { rest := data } = .ok a input) : d.unread data = input.rest := by
  rw [unread, EStateM.run, h]

/-- What reads back does so in front of anything, and all of that is left. -/
theorem Reads.decode_and_unread (h : d.Reads bytes a) (rest : Bytes) :
    d.decode (bytes ++ rest) = .ok a ∧ d.unread (bytes ++ rest) = rest := by
  obtain ⟨offset, hrun⟩ := h rest 0
  exact ⟨decode_eq_ok_iff.2 ⟨_, hrun⟩, unread_of_eq_ok hrun⟩

/-- Whatever is not left was taken. -/
theorem Takes.of_decode_eq_ok (h : d.Takes P) (hread : d.decode data = .ok a) :
    ∃ taken, data = taken ++ d.unread data ∧ P a taken := by
  obtain ⟨input, hrun⟩ := decode_eq_ok_iff.1 hread
  rw [unread_of_eq_ok hrun]
  exact h _ _ _ hrun

/-- A value is read, and the rest left, exactly where a form of it stands in front of the rest. -/
theorem decode_and_unread_iff {encode : α → Except FormatError Bytes}
    (hreads : ∀ {a bytes}, encode a = .ok bytes → d.Reads bytes a)
    (htakes : d.Takes fun a taken => encode a = .ok taken) :
    d.decode data = .ok a ∧ d.unread data = rest ↔
      ∃ bytes, encode a = .ok bytes ∧ data = bytes ++ rest := by
  constructor
  · -- What was taken is the form, since nothing else is left to stand in front of the rest.
    rintro ⟨hread, rfl⟩
    obtain ⟨taken, hdata, hform⟩ := htakes.of_decode_eq_ok hread
    exact ⟨taken, hform, hdata⟩
  · rintro ⟨bytes, hform, rfl⟩
    exact (hreads hform).decode_and_unread rest

end Decoder

/-! ### What can be written -/

/-- A count is written exactly where it fits in two bytes. -/
theorem exists_encodeCount_iff {part : SizedPart} {n : Nat} :
    (∃ bytes, encodeCount part n = .ok bytes) ↔ n < 65536 := by
  constructor
  · rintro ⟨bytes, h⟩
    obtain ⟨count, rfl, -⟩ := encodeCount_ok h
    exact count.toNat_lt
  · intro hn
    exact ⟨_, if_pos hn⟩

/-- A length is written exactly where it fits in four bytes. -/
theorem exists_encodeLength_iff {part : SizedPart} {n : Nat} :
    (∃ bytes, encodeLength part n = .ok bytes) ↔ n < 4294967296 := by
  constructor
  · rintro ⟨bytes, h⟩
    obtain ⟨length, rfl, -⟩ := encodeLength_ok h
    exact length.toNat_lt
  · intro hn
    exact ⟨_, if_pos hn⟩

/-- A table is written exactly where each of its entries is. -/
theorem exists_encodeAll_iff {α : Type} {encode : α → Except FormatError Bytes}
    {values : Array α} :
    (∃ bytes, encodeAll encode values = .ok bytes) ↔
      ∀ a ∈ values, ∃ form, encode a = .ok form := by
  simp only [encodeAll, Except.exists_bind_eq_ok, Except.pure_eq_ok, exists_eq', and_true,
    exists_mapM_eq_ok_iff, Array.mem_toList_iff]

namespace Attribute

/-- An attribute is written exactly where its payload fits. -/
theorem exists_encode_iff {a : Attribute} :
    (∃ bytes, a.encode = .ok bytes) ↔ a.data.length < 4294967296 := by
  simp only [encode, Except.exists_bind_eq_ok, Except.pure_eq_ok, exists_eq', and_true,
    exists_encodeLength_iff]

/-- A list of attributes is written exactly where it and all payloads fit. -/
theorem exists_encodeList_iff {part : SizedPart} {attributes : Array Attribute} :
    (∃ bytes, encodeList part attributes = .ok bytes) ↔
      attributes.size < 65536 ∧ ∀ a ∈ attributes, a.data.length < 4294967296 := by
  simp only [encodeList, Except.exists_bind_eq_ok, Except.pure_eq_ok, exists_eq', and_true,
    exists_and_right, exists_encodeCount_iff, exists_encodeAll_iff, exists_encode_iff]

end Attribute

/-- The counts and lengths of a body fit the numbers they are written as. -/
structure Code.Fits (c : Code) : Prop where
  code : c.code.length < 4294967296
  exceptions : c.exceptions.size < 65536
  attributes : c.attributes.size < 65536
  payloads : ∀ a ∈ c.attributes, a.data.length < 4294967296

/-- A body is written exactly where its counts and lengths fit. -/
theorem Code.exists_encode_iff {c : Code} : (∃ bytes, c.encode = .ok bytes) ↔ c.Fits := by
  simp only [encode, Except.exists_bind_eq_ok, Except.pure_eq_ok, exists_eq', and_true,
    exists_and_right, exists_encodeLength_iff, exists_encodeCount_iff,
    Attribute.exists_encodeList_iff]
  constructor
  · rintro ⟨hcode, hexceptions, hattributes, hpayloads⟩
    exact ⟨hcode, hexceptions, hattributes, hpayloads⟩
  · intro h
    exact ⟨h.code, h.exceptions, h.attributes, h.payloads⟩

/-- A table of local variables is written exactly where its entries can be counted. -/
theorem LocalVariable.exists_encodeTable_iff {table : Array LocalVariable} :
    (∃ bytes, encodeTable table = .ok bytes) ↔ table.size < 65536 := by
  simp only [encodeTable, Except.exists_bind_eq_ok, Except.pure_eq_ok, exists_eq', and_true,
    exists_encodeCount_iff]

namespace ClassFile

/-- A body is read from a payload, and the rest of it left, exactly where what is written for the
body stands in front of that rest. So it reads back whatever follows, and what was read is written
as the bytes that are not left, all of them if none are. A body is written iff its counts and
lengths fit. The same holds of a table of local variables, which fits if its entries can be
counted. -/
theorem exact_payloads :
    (∀ (c : Code) (data rest : Bytes),
      Code.decode data = .ok c ∧ Code.decoder.unread data = rest ↔
        ∃ bytes, c.encode = .ok bytes ∧ data = bytes ++ rest) ∧
    (∀ c : Code, (∃ bytes, c.encode = .ok bytes) ↔ c.Fits) ∧
    (∀ (table : Array LocalVariable) (data rest : Bytes),
      LocalVariable.decodeTable data = .ok table ∧
          (Decoder.counted LocalVariable.decoder).unread data = rest ↔
        ∃ bytes, LocalVariable.encodeTable table = .ok bytes ∧ data = bytes ++ rest) ∧
    ∀ table : Array LocalVariable,
      (∃ bytes, LocalVariable.encodeTable table = .ok bytes) ↔ table.size < 65536 := by
  refine ⟨fun c data rest => ?_, fun c => Code.exists_encode_iff, fun table data rest => ?_,
    fun table => LocalVariable.exists_encodeTable_iff⟩
  · exact Decoder.decode_and_unread_iff Code.reads_encode Code.takes_decoder
  · exact Decoder.decode_and_unread_iff LocalVariable.reads_encodeTable LocalVariable.takes_table

/-- A table with one variable. -/
def receiverTable : Array LocalVariable :=
  #[{ startPc := 0, length := 2, nameIndex := 3, descIndex := 4, index := 0 }]

/-- The bytes of that table. -/
def receiverTableBytes : Bytes :=
  [0, 1, 0, 0, 0, 2, 0, 3, 0, 4, 0, 0]

/-- A body that returns its first variable, with a handler and with a table among its attributes. -/
def guardedBody : Code :=
  { maxStack := 1
    maxLocals := 1
    code := [0x2a, 0xb0]
    exceptions := #[{ startPc := 0, endPc := 1, handlerPc := 1, catchType := 0 }]
    attributes := #[{ nameIndex := 7, data := receiverTableBytes }] }

/-- The bytes of that body. -/
def guardedBodyBytes : Bytes :=
  [0, 1, 0, 1, 0, 0, 0, 2, 0x2a, 0xb0, 0, 1, 0, 0, 0, 1, 0, 1, 0, 0, 0, 1, 0, 7, 0, 0, 0, 12] ++
    receiverTableBytes

/-- With a byte behind it that is no part of it, the body is read and the byte is left, and so it is
with the table inside. -/
theorem exact_payloads_guarded :
    guardedBody.encode = .ok guardedBodyBytes ∧
    Code.decode (guardedBodyBytes ++ [0xff]) = .ok guardedBody ∧
    Code.decoder.unread (guardedBodyBytes ++ [0xff]) = [0xff] ∧
    LocalVariable.encodeTable receiverTable = .ok receiverTableBytes ∧
    LocalVariable.decodeTable (receiverTableBytes ++ [0xff]) = .ok receiverTable ∧
    (Decoder.counted LocalVariable.decoder).unread (receiverTableBytes ++ [0xff]) = [0xff] := by
  obtain ⟨hbody, -, htable, -⟩ := exact_payloads
  have hbodyForm : guardedBody.encode = .ok guardedBodyBytes := rfl
  have htableForm : LocalVariable.encodeTable receiverTable = .ok receiverTableBytes := rfl
  obtain ⟨hread, hleft⟩ := (hbody guardedBody _ [0xff]).2 ⟨_, hbodyForm, rfl⟩
  obtain ⟨hread', hleft'⟩ := (htable receiverTable _ [0xff]).2 ⟨_, htableForm, rfl⟩
  exact ⟨hbodyForm, hread, hleft, htableForm, hread', hleft'⟩

end ClassFile

end Relabel
