import Relabel.Proofs.ClassFile.Codec
import Relabel.Proofs.ClassFile.Decoding
import Relabel.Proofs.ClassFile.ShortestForm

/-!
# What is written for a class that was read

`Decoder.Takes` says what a decoder takes off the front of its input. Whatever is read of a class
besides its pool is written as it was stored. A pool is written as it was stored when its count is
the number of its slots and its texts are in shortest form: a wide entry in the last slot that the
count allows brings a slot more along, and a text that was read exactly is written in shortest form,
however it was stored.

## Main results

- `MemberInfo.takes_decode`: members are taken in the form they are written in.
- `Code.takes_decoder`: and so are bodies.
- `Pool.takes_decode`: a pool is taken as its count and a form for each slot from one on.
- `Pool.encode_eq_iff`: when a pool is written as it was stored.
- `ClassFile.encode_eq_iff_of_decode`: when a class is written as it was stored.
-/

namespace Relabel

/-- The two halves of a number of 64 bits are written one after the other. -/
theorem Bytes.ofUInt64_toUInt64 (high low : UInt32) :
    ofUInt64 (toUInt64 high low) = ofUInt32 high ++ ofUInt32 low := by
  -- Shifting the upper half leaves 32 zeros, so nothing of it is lost or mixed with the lower.
  have hhigh := high.toNat_lt
  have hlow : low.toNat < 2 ^ 32 := low.toNat_lt
  have hshift : (high.toUInt64 <<< 32).toNat = high.toNat <<< 32 := by
    rw [UInt64.toNat_shiftLeft, UInt32.toNat_toUInt64, Nat.shiftLeft_eq, Nat.shiftLeft_eq]
    exact Nat.mod_eq_of_lt (by simp; omega)
  have hvalue : (toUInt64 high low).toNat = high.toNat * 2 ^ 32 + low.toNat := by
    rw [toUInt64, UInt64.toNat_or, hshift, UInt32.toNat_toUInt64,
      ← Nat.shiftLeft_add_eq_or_of_lt hlow, Nat.shiftLeft_eq]
  have hfirst : (toUInt64 high low >>> 32).toUInt32 = high := by
    rw [← UInt32.toNat_inj, UInt64.toNat_toUInt32, UInt64.toNat_shiftRight, hvalue,
      Nat.shiftRight_eq_div_pow]
    show (high.toNat * 2 ^ 32 + low.toNat) / 2 ^ 32 % 2 ^ 32 = high.toNat
    omega
  have hsecond : (toUInt64 high low).toUInt32 = low := by
    rw [← UInt32.toNat_inj, UInt64.toNat_toUInt32, hvalue]
    omega
  rw [ofUInt64, hfirst, hsecond]

/-- Different numbers have different bytes. -/
theorem Bytes.ofUInt16_inj {x y : UInt16} : ofUInt16 x = ofUInt16 y ↔ x = y := by
  constructor
  · intro h
    obtain ⟨hhigh, hlow⟩ := List.cons.inj h
    rw [← toUInt16_bytes x, ← toUInt16_bytes y, hhigh, (List.cons.inj hlow).1]
  · rintro rfl
    rfl

/-- What is related by a function elementwise is its image. -/
theorem eq_map_of_forall₂ {α β : Type} {f : α → β} {as : List α} {bs : List β}
    (h : List.Forall₂ (fun a b => b = f a) as bs) : bs = as.map f := by
  induction h with
  | nil => rfl
  | cons hb _ ih => rw [hb, ih, List.map_cons]

namespace Decoder

variable {α β : Type} {P : α → Bytes → Prop} {Q : β → Bytes → Prop}

/-- The decoder takes bytes off the front that are so related to what it gives. -/
def Takes (d : Decoder α) (P : α → Bytes → Prop) : Prop :=
  ∀ input a input', d input = .ok a input' → ∃ taken, input.rest = taken ++ input'.rest ∧ P a taken

/-- What is known of the form may be weakened. -/
theorem Takes.imp {P' : α → Bytes → Prop} {d : Decoder α} (h : d.Takes P)
    (himp : ∀ a taken, P a taken → P' a taken) : d.Takes P' := by
  intro input a input' hrun
  obtain ⟨taken, hrest, ha⟩ := h input a input' hrun
  exact ⟨taken, hrest, himp a taken ha⟩

theorem Takes.pure {a : α} (h : P a []) : (Pure.pure a : Decoder α).Takes P := by
  intro input b input' hrun
  obtain ⟨rfl, rfl⟩ := EStateM.pure_eq_ok.1 hrun
  exact ⟨[], rfl, h⟩

theorem Takes.throw {e : FormatError} : (MonadExcept.throw e : Decoder α).Takes P :=
  fun _ _ _ h => (EStateM.throw_eq_ok.1 h).elim

/-- What is taken by two steps is taken by the first and then by the second. -/
theorem Takes.bind {d : Decoder α} {f : α → Decoder β} (h : d.Takes P)
    (h' : ∀ a taken, P a taken → (f a).Takes fun b taken' => Q b (taken ++ taken')) :
    (d >>= f).Takes Q := by
  intro input b input' hrun
  obtain ⟨a, input₁, hd, hf⟩ := EStateM.bind_eq_ok.1 hrun
  obtain ⟨taken, hrest, ha⟩ := h input a input₁ hd
  obtain ⟨taken', hrest', hb⟩ := h' a taken ha input₁ b input' hf
  exact ⟨taken ++ taken', by rw [hrest, hrest', List.append_assoc], hb⟩

/-- The last step, after which nothing more is taken. -/
theorem Takes.map {d : Decoder α} {f : α → β} (h : d.Takes P)
    (hf : ∀ a taken, P a taken → Q (f a) taken) :
    (do let a ← d; Pure.pure (f a) : Decoder β).Takes Q :=
  h.bind fun a taken ha => .pure (by simpa using hf a taken ha)

/-- Where nothing is left of an input, all of it was taken. -/
theorem Takes.of_readToEnd {d : Decoder α} (h : d.Takes P) {data : Bytes} {a : α} {offset : Nat}
    (hread : d { rest := data } = .ok a { rest := [], offset }) : P a data := by
  obtain ⟨taken, hrest, ha⟩ := h _ _ _ hread
  rw [List.append_nil] at hrest
  subst hrest
  exact ha

/-- A byte is taken in the form it is written in. -/
theorem takes_u8 : u8.Takes fun b taken => taken = [b] := by
  intro input b input' h
  unfold u8 at h
  split at h
  · next a rest hrest =>
    obtain ⟨rfl, rfl⟩ := EStateM.Result.ok.inj h
    exact ⟨[a], hrest, rfl⟩
  · cases h

/-- So is a number of 16 bits. -/
theorem takes_u16 : u16.Takes fun x taken => taken = Bytes.ofUInt16 x := by
  intro input x input' h
  unfold u16 at h
  split at h
  · next a b rest hrest =>
    obtain ⟨rfl, rfl⟩ := EStateM.Result.ok.inj h
    exact ⟨[a, b], hrest, (Bytes.ofUInt16_toUInt16 a b).symm⟩
  · cases h

/-- So is a number of 32 bits. -/
theorem takes_u32 : u32.Takes fun x taken => taken = Bytes.ofUInt32 x := by
  intro input x input' h
  unfold u32 at h
  split at h
  · next a b c d rest hrest =>
    obtain ⟨rfl, rfl⟩ := EStateM.Result.ok.inj h
    exact ⟨[a, b, c, d], hrest, (Bytes.ofUInt32_toUInt32 a b c d).symm⟩
  · cases h

/-- So is a number of 64 bits, which is read by halves. -/
theorem takes_u64 : u64.Takes fun x taken => taken = Bytes.ofUInt64 x := by
  refine takes_u32.bind ?_
  rintro high _ rfl
  refine takes_u32.map ?_
  rintro low _ rfl
  exact (Bytes.ofUInt64_toUInt64 high low).symm

/-- Bytes are taken as they are. -/
theorem takes_bytes (n : Nat) : (bytes n).Takes fun a taken => taken = a ∧ a.length = n := by
  intro input a input' h
  have hlength := (length_of_bytes h).1
  unfold bytes at h
  dsimp only at h
  split at h
  · obtain ⟨rfl, rfl⟩ := EStateM.Result.ok.inj h
    exact ⟨_, (List.take_append_drop n input.rest).symm, rfl, hlength⟩
  · cases h

/-- A row of values is taken as the row of their forms. -/
theorem Takes.repeatFrom {d : Decoder α} (h : d.Takes P) (n : Nat) (read : Array α) :
    (repeatFrom d n read).Takes fun values taken => ∃ added forms, added.length = n ∧
      values = read ++ added.toArray ∧ taken = forms.flatten ∧ List.Forall₂ P added forms := by
  induction n generalizing read with
  | zero => exact .pure ⟨[], [], rfl, by simp, rfl, .nil⟩
  | succ n ih =>
    refine h.bind fun a form ha => (ih (read.push a)).imp ?_
    rintro values _ ⟨added, forms, hlength, rfl, rfl, hforms⟩
    exact ⟨a :: added, form :: forms, by rw [List.length_cons, hlength],
      by rw [List.push_append_toArray], rfl, .cons ha hforms⟩

/-- A count and a row of values are taken as the size of the row and their forms. -/
theorem Takes.counted {d : Decoder α} (h : d.Takes P) :
    (counted d).Takes fun values taken => ∃ (count : UInt16) (forms : List Bytes),
      count.toNat = values.size ∧ taken = Bytes.ofUInt16 count ++ forms.flatten ∧
      List.Forall₂ P values.toList forms := by
  refine takes_u16.bind ?_
  rintro count _ rfl
  refine (h.repeatFrom count.toNat #[]).imp ?_
  rintro values _ ⟨added, forms, hlength, rfl, rfl, hforms⟩
  exact ⟨count, forms, by simp [hlength], rfl, by simpa using hforms⟩

end Decoder

/-! ### Members and attributes -/

/-- A count that was read can be written. -/
theorem encodeCount_toNat (part : SizedPart) (count : UInt16) :
    encodeCount part count.toNat = .ok (Bytes.ofUInt16 count) := by
  rw [encodeCount, if_pos count.toNat_lt]
  simp

/-- A length that was read can be written. -/
theorem encodeLength_toNat (part : SizedPart) (length : UInt32) :
    encodeLength part length.toNat = .ok (Bytes.ofUInt32 length) := by
  rw [encodeLength, if_pos length.toNat_lt]
  simp

/-- Values with forms are written as these, one after the other. -/
theorem encodeAll_of_forall₂ {α : Type} {encode : α → Except FormatError Bytes} {values : Array α}
    {forms : List Bytes}
    (h : List.Forall₂ (fun a form => encode a = .ok form) values.toList forms) :
    encodeAll encode values = .ok forms.flatten := by
  rw [encodeAll, mapM_eq_ok_of_forall₂ h]
  rfl

namespace Attribute

open Decoder

/-- An attribute is taken in the form it is written in. -/
theorem takes_decode : decode.Takes fun a taken => a.encode = .ok taken := by
  refine takes_u16.bind ?_
  rintro nameIndex _ rfl
  refine takes_u32.bind ?_
  rintro length _ rfl
  refine (takes_bytes length.toNat).map ?_
  rintro data _ ⟨rfl, hlength⟩
  simp only [encode, hlength, encodeLength_toNat]
  exact congrArg Except.ok (List.append_assoc ..)

/-- A list of attributes is taken in the form it is written in, whichever part it counts as. -/
theorem takes_decodeList (part : SizedPart) :
    decodeList.Takes fun attributes taken => encodeList part attributes = .ok taken := by
  refine takes_decode.counted.imp ?_
  rintro attributes _ ⟨count, forms, hcount, rfl, hforms⟩
  rw [encodeList, ← hcount, encodeCount_toNat, encodeAll_of_forall₂ hforms]
  rfl

end Attribute

namespace MemberInfo

open Decoder

/-- A field or method is taken in the form it is written in. -/
theorem takes_decode : decode.Takes fun m taken => m.encode = .ok taken := by
  refine takes_u16.bind ?_
  rintro access _ rfl
  refine takes_u16.bind ?_
  rintro nameIndex _ rfl
  refine takes_u16.bind ?_
  rintro descIndex _ rfl
  refine (Attribute.takes_decodeList .attributes).map ?_
  intro attributes taken hattributes
  rw [encode, hattributes]
  exact congrArg Except.ok (by simp only [List.append_assoc])

/-- So are lists of them. -/
theorem takes_decodeList :
    (counted decode).Takes fun members taken => encodeList members = .ok taken := by
  refine takes_decode.counted.imp ?_
  rintro members _ ⟨count, forms, hcount, rfl, hforms⟩
  rw [encodeList, ← hcount, encodeCount_toNat, encodeAll_of_forall₂ hforms]
  rfl

end MemberInfo

/-! ### Bodies and their tables -/

/-- A count and a row of values that each have one form. -/
theorem Decoder.Takes.countedForms {α : Type} {d : Decoder α} {form : α → Bytes}
    (h : d.Takes fun a taken => taken = form a) (part : SizedPart) :
    (Decoder.counted d).Takes fun values taken =>
      ∃ count, encodeCount part values.size = .ok count ∧
      taken = count ++ values.toList.flatMap form := by
  refine h.counted.imp ?_
  rintro values _ ⟨count, forms, hcount, rfl, hforms⟩
  rw [eq_map_of_forall₂ hforms, ← List.flatMap_def]
  exact ⟨_, hcount ▸ encodeCount_toNat part count, rfl⟩

open Decoder

/-- A handler is taken in the form it is written in. -/
theorem Handler.takes_decode : Handler.decode.Takes fun e taken => taken = e.encode := by
  refine takes_u16.bind ?_
  rintro startPc _ rfl
  refine takes_u16.bind ?_
  rintro endPc _ rfl
  refine takes_u16.bind ?_
  rintro handlerPc _ rfl
  refine takes_u16.map ?_
  rintro catchType _ rfl
  simp only [encode, List.append_assoc]

/-- A body is taken in the form it is written in. -/
theorem Code.takes_decoder : Code.decoder.Takes fun c taken => c.encode = .ok taken := by
  refine takes_u16.bind ?_
  rintro maxStack _ rfl
  refine takes_u16.bind ?_
  rintro maxLocals _ rfl
  refine takes_u32.bind ?_
  rintro length _ rfl
  refine (takes_bytes length.toNat).bind ?_
  rintro code _ ⟨rfl, hlength⟩
  refine (Handler.takes_decode.countedForms .exceptionTable).bind ?_
  rintro exceptions _ ⟨count, hcount, rfl⟩
  refine (Attribute.takes_decodeList .attributes).map ?_
  intro attributes taken hattributes
  -- All lengths and counts are those that were read, so they are written as they were.
  simp only [encode, hlength, encodeLength_toNat, hcount, hattributes]
  exact congrArg Except.ok (by simp only [List.append_assoc])

/-- An entry of a table is taken in the form it is written in. -/
theorem LocalVariable.takes_decoder :
    LocalVariable.decoder.Takes fun v taken => taken = v.encode := by
  refine takes_u16.bind ?_
  rintro startPc _ rfl
  refine takes_u16.bind ?_
  rintro length _ rfl
  refine takes_u16.bind ?_
  rintro nameIndex _ rfl
  refine takes_u16.bind ?_
  rintro descIndex _ rfl
  refine takes_u16.map ?_
  rintro index _ rfl
  simp only [encode, List.append_assoc]

/-- A table of local variables is taken in the form it is written in. -/
theorem LocalVariable.takes_table :
    (counted LocalVariable.decoder).Takes fun table taken => encodeTable table = .ok taken := by
  refine (takes_decoder.countedForms .localTable).imp ?_
  rintro table _ ⟨count, hcount, rfl⟩
  rw [encodeTable, hcount]
  rfl

/-! ### Entries of a pool -/

namespace Constant

open Decoder

/-- The form of a text behind its tag: its length, and its bytes. -/
def textForm (raw : Bytes) : Bytes :=
  1 :: Bytes.ofUInt16 raw.length.toUInt16 ++ raw

/-- The forms an entry can be read from. Only a text that reads exactly has more than one. -/
def StoredAs : Constant → Bytes → Prop
  | .utf8 text, form => ∃ raw : Bytes, raw.length < 65536 ∧
      ModifiedUtf8.decode? raw = some { text, exact := true } ∧ form = textForm raw
  | c, form => ∀ i, c.encode i = .ok form

/-- The entry is stored in shortest form, if it is a text that reads exactly. -/
def Canonical : Constant → Bytes → Prop
  | .utf8 _, form => ∃ raw, form = textForm raw ∧ ModifiedUtf8.Shortest raw
  | _, _ => True

/-- A text is taken in a form it may be stored in, be it well-formed or not. -/
theorem takes_decodeUtf8 (index : UInt16) :
    (decodeUtf8 index).Takes fun c taken => c.StoredAs (1 :: taken) := by
  refine takes_u16.bind ?_
  rintro length _ rfl
  refine (takes_bytes length.toNat).bind ?_
  rintro _ raw ⟨rfl, hlength⟩
  have hform : 1 :: (Bytes.ofUInt16 length ++ raw) = textForm raw := by
    rw [textForm, hlength]
    simp
  have hlt : raw.length < 65536 := hlength ▸ length.toNat_lt
  split
  -- The bytes are well-formed, if perhaps longer than they need be.
  · next text hread =>
    refine .pure ⟨raw, hlt, hread, ?_⟩
    rw [List.append_nil, hform]
  -- They are not, and are kept beside the text.
  · next text hread =>
    refine .pure fun i => ?_
    rw [List.append_nil, hform, encode, encodeCount, if_pos hlt]
    rfl
  · exact .throw

/-- An entry with one number. -/
theorem takes_single {α : Type} {d : Decoder α} {ofNumber : α → Bytes}
    (hd : d.Takes fun x taken => taken = ofNumber x) {make : α → Constant} {tag : UInt8}
    (hmake : ∀ x, (make x).StoredAs (tag :: ofNumber x)) :
    (do let x ← d; pure (make x) : Decoder Constant).Takes fun c taken =>
      c.StoredAs (tag :: taken) := by
  refine hd.map ?_
  rintro x _ rfl
  exact hmake x

/-- An entry with two indices. -/
theorem takes_decodePair {make : UInt16 → UInt16 → Constant} {tag : UInt8}
    (hmake : ∀ first second, (make first second).StoredAs (tagged2 tag first second)) :
    (decodePair make).Takes fun c taken => c.StoredAs (tag :: taken) := by
  refine takes_u16.bind ?_
  rintro first _ rfl
  refine takes_u16.map ?_
  rintro second _ rfl
  exact hmake first second

/-- An entry is taken in a form that it can be read from. -/
theorem takes_decode (index : UInt16) : (decode index).Takes StoredAs := by
  refine takes_u8.bind ?_
  rintro tag _ rfl
  have htag (n : UInt8) (h : tag.toNat = n.toNat) : tag = n := UInt8.toNat_inj.1 h
  split <;> rename_i h
  -- The tags one after the other; what is behind a tag has one form only.
  · obtain rfl := htag 1 h
    exact takes_decodeUtf8 index
  · obtain rfl := htag 3 h
    exact takes_single takes_u32 fun _ _ => rfl
  · obtain rfl := htag 4 h
    exact takes_single takes_u32 fun _ _ => rfl
  · obtain rfl := htag 5 h
    exact takes_single takes_u64 fun _ _ => rfl
  · obtain rfl := htag 6 h
    exact takes_single takes_u64 fun _ _ => rfl
  · obtain rfl := htag 7 h
    exact takes_single takes_u16 fun _ _ => rfl
  · obtain rfl := htag 8 h
    exact takes_single takes_u16 fun _ _ => rfl
  · obtain rfl := htag 9 h
    exact takes_decodePair fun _ _ _ => rfl
  · obtain rfl := htag 10 h
    exact takes_decodePair fun _ _ _ => rfl
  · obtain rfl := htag 11 h
    exact takes_decodePair fun _ _ _ => rfl
  · obtain rfl := htag 12 h
    exact takes_decodePair fun _ _ _ => rfl
  · obtain rfl := htag 15 h
    refine takes_u8.bind ?_
    rintro kind _ rfl
    refine takes_u16.map ?_
    rintro reference _ rfl _
    rfl
  · obtain rfl := htag 16 h
    exact takes_single takes_u16 fun _ _ => rfl
  · obtain rfl := htag 17 h
    exact takes_decodePair fun _ _ _ => rfl
  · obtain rfl := htag 18 h
    exact takes_decodePair fun _ _ _ => rfl
  · obtain rfl := htag 19 h
    exact takes_single takes_u16 fun _ _ => rfl
  · obtain rfl := htag 20 h
    exact takes_single takes_u16 fun _ _ => rfl
  · exact .throw

/-- A text is written if its form is short enough. -/
theorem encode_utf8_eq_ok {text : String} {form : Bytes} {i : UInt16} :
    (utf8 text).encode i = .ok form ↔
      (ModifiedUtf8.encode text).length < 65536 ∧ textForm (ModifiedUtf8.encode text) = form := by
  simp only [encode, textForm]
  split <;> simp [*]

/-- What is written for an entry is a form that it can be read from. -/
theorem storedAs_of_encode {c : Constant} {form : Bytes} {i : UInt16} (h : c.encode i = .ok form) :
    c.StoredAs form := by
  cases c with
  | utf8 text =>
    obtain ⟨hlt, rfl⟩ := encode_utf8_eq_ok.1 h
    exact ⟨_, hlt, ModifiedUtf8.decode?_encode text, rfl⟩
  | _ => exact fun _ => h

/-- Different bytes make up different texts. -/
theorem textForm_inj {raw raw' : Bytes} : textForm raw = textForm raw' ↔ raw = raw' :=
  ⟨fun h => List.append_inj_right h rfl, fun h => h ▸ rfl⟩

/-- The length in front of a text says where it ends. -/
theorem length_eq_of_textForm_append {raw raw' rest rest' : Bytes} (hlt : raw.length < 65536)
    (hlt' : raw'.length < 65536) (h : textForm raw ++ rest = textForm raw' ++ rest') :
    raw.length = raw'.length := by
  simp only [textForm, List.cons_append, List.append_assoc, List.cons.injEq, true_and] at h
  have hlength := congrArg UInt16.toNat (Bytes.ofUInt16_inj.1 (List.append_inj_left h rfl))
  rwa [UInt16.toNat_ofNat_of_lt' hlt, UInt16.toNat_ofNat_of_lt' hlt'] at hlength

/-- A text says first how long it is, and any other entry has one form, so no form of an entry is
the front of another. -/
theorem StoredAs.eq_of_append {c : Constant} {form form' rest rest' : Bytes} (h : c.StoredAs form)
    (h' : c.StoredAs form') (happend : form ++ rest = form' ++ rest') : form = form' := by
  cases c with
  | utf8 text =>
    obtain ⟨raw, hlt, -, rfl⟩ := h
    obtain ⟨raw', hlt', -, rfl⟩ := h'
    have hlength := length_eq_of_textForm_append hlt hlt' happend
    exact List.append_inj_left happend (by simp [textForm, hlength])
  | _ => exact Except.ok.inj ((h 0).symm.trans (h' 0))

/-- An entry is written as it was stored iff that was in shortest form. -/
theorem encode_eq_iff_canonical {c : Constant} {form : Bytes} (h : c.StoredAs form) {i : UInt16} :
    c.encode i = .ok form ↔ c.Canonical form := by
  -- Only a text has more than one form.
  cases c with
  | utf8 text =>
    obtain ⟨raw, hlt, hread, rfl⟩ := h
    rw [encode_utf8_eq_ok, textForm_inj, Canonical]
    constructor
    · rintro ⟨-, hraw⟩
      exact ⟨raw, rfl, (ModifiedUtf8.encode_eq_iff_shortest hread).1 hraw⟩
    · rintro ⟨raw', hform, hshortest⟩
      obtain rfl := textForm_inj.1 hform
      have hraw := (ModifiedUtf8.encode_eq_iff_shortest hread).2 hshortest
      exact ⟨hraw.symm ▸ hlt, hraw⟩
  | _ => exact ⟨fun _ => trivial, fun _ => h i⟩

end Constant

namespace Pool

open Decoder

/-- Each slot is taken with a form of its entry. -/
theorem takes_decodeSlots (count : UInt16) (fuel : Nat) (index : UInt16) (slots : Array Constant) :
    (decodeSlots count fuel index slots).Takes fun slots' taken => ∃ added forms,
      slots' = slots ++ added.toArray ∧ taken = forms.flatten ∧
      List.Forall₂ Constant.StoredAs added forms := by
  induction fuel generalizing index slots with
  | zero => exact .pure ⟨[], [], by simp, rfl, .nil⟩
  | succ fuel ih =>
    unfold decodeSlots
    split
    · refine (Constant.takes_decode index).bind fun c form hform => ?_
      split
      · refine (ih _ _).imp ?_
        rintro slots' _ ⟨added, forms, rfl, rfl, hforms⟩
        -- The slot behind a wide entry has the empty form.
        refine ⟨c :: .unusable :: added, form :: [] :: forms, ?_, rfl,
          .cons hform (.cons ?_ hforms)⟩
        · rw [List.push_append_toArray, List.push_append_toArray]
        · exact fun _ => rfl
      · refine (ih _ _).imp ?_
        rintro slots' _ ⟨added, forms, rfl, rfl, hforms⟩
        exact ⟨c :: added, form :: forms, List.push_append_toArray .., rfl, .cons hform hforms⟩
    · exact .pure ⟨[], [], by simp, rfl, .nil⟩

/-- The rest is looked at and not taken. -/
theorem takes_rest : rest.Takes fun _ taken => taken = [] := by
  intro input bytes input' h
  obtain ⟨-, rfl⟩ := EStateM.Result.ok.inj h
  exact ⟨[], rfl, rfl⟩

/-- A pool is taken as its count and the forms of its slots from one on. -/
theorem takes_decode : decode.Takes fun pool taken => ∃ (count : UInt16) (forms : List Bytes),
    taken = Bytes.ofUInt16 count ++ forms.flatten ∧
    List.Forall₂ Constant.StoredAs (pool.slots.toList.drop 1) forms := by
  refine takes_u16.bind ?_
  rintro count _ rfl
  refine takes_rest.bind ?_
  rintro rest _ rfl
  refine (takes_decodeSlots count (rest.length + 1) 1 #[.unusable]).map ?_
  rintro slots _ ⟨added, forms, rfl, rfl, hforms⟩
  exact ⟨count, forms, rfl, by simpa using hforms⟩

/-- Forms that make up the same bytes are the same. -/
theorem forms_eq_of_flatten_eq {entries : List Constant} {forms forms' : List Bytes}
    (h : List.Forall₂ Constant.StoredAs entries forms)
    (h' : List.Forall₂ Constant.StoredAs entries forms')
    (hflatten : forms.flatten = forms'.flatten) : forms = forms' := by
  induction h generalizing forms' with
  | nil =>
    cases h'
    rfl
  | @cons c form _ forms hc _ ih =>
    cases h' with
    | @cons _ form' _ forms' hc' hforms' =>
      rw [List.flatten_cons, List.flatten_cons] at hflatten
      -- The first entry is read back in one way, so both lists begin with one form.
      obtain rfl := hc.eq_of_append hc' hflatten
      rw [ih hforms' (List.append_cancel_left hflatten)]

/-- What is said of the entries behind the first slot does not depend on their numbers. -/
private theorem forall₂_drop_zipIdx {R : Constant → Bytes → Prop} {slots : List Constant}
    {forms : List Bytes} :
    List.Forall₂ (fun entry form => R entry.1 form) (slots.zipIdx.drop 1) forms ↔
      List.Forall₂ R (slots.drop 1) forms := by
  have hentries : slots.drop 1 = (slots.zipIdx.drop 1).map Prod.fst := by
    rw [List.map_drop, List.zipIdx_map_fst]
  rw [hentries, List.forall₂_map_left_iff]

/-- A pool is written as it was stored iff it was stored with the number of its slots and its texts
in shortest form. -/
theorem encode_eq_iff {pool : Pool} {count : UInt16} {forms : List Bytes}
    (h : List.Forall₂ Constant.StoredAs (pool.slots.toList.drop 1) forms) :
    pool.encode = .ok (Bytes.ofUInt16 count ++ forms.flatten) ↔
      count.toNat = pool.size ∧
      List.Forall₂ Constant.Canonical (pool.slots.toList.drop 1) forms := by
  have hstored := forall₂_drop_zipIdx.2 h
  constructor
  -- What is written are forms of the entries, and these are told apart by their first bytes.
  · intro hencode
    simp only [encode, Except.bind_eq_ok, Except.pure_eq_ok] at hencode
    obtain ⟨_, hcount, forms', hforms', heq⟩ := hencode
    obtain ⟨count', hsize, rfl⟩ := encodeCount_ok hcount
    obtain ⟨hcount', hflatten⟩ := List.append_inj heq rfl
    have hforms' := forall₂_of_mapM_eq_ok hforms'
    have hstored' := forall₂_drop_zipIdx.1 (hforms'.imp fun _ _ => Constant.storedAs_of_encode)
    obtain rfl := forms_eq_of_flatten_eq h hstored' hflatten.symm
    refine ⟨?_, forall₂_drop_zipIdx.1 (hstored.mp (fun _ _ hc hform => ?_) hforms')⟩
    · rw [← Bytes.ofUInt16_inj.1 hcount', hsize]
    · exact (Constant.encode_eq_iff_canonical hc).1 hform
  -- Where every form is the one that is written, the pool is written so.
  · rintro ⟨hcount, hcanonical⟩
    have hforms : List.Forall₂ (fun entry form => entry.1.encode entry.2.toUInt16 = .ok form)
        (pool.slots.toList.zipIdx.drop 1) forms :=
      hstored.mp (fun _ _ hc hform => (Constant.encode_eq_iff_canonical hc).2 hform)
        (forall₂_drop_zipIdx.2 hcanonical)
    rw [encode, ← hcount, encodeCount_toNat, mapM_eq_ok_of_forall₂ hforms]
    rfl

end Pool

namespace ClassFile

open Decoder

/-- What stands in front of the pool. -/
def front (c : ClassFile) : Bytes :=
  Bytes.ofUInt32 magic ++ Bytes.ofUInt16 c.minorVersion ++ Bytes.ofUInt16 c.majorVersion

/-- Where a class is written, its pool is. -/
theorem exists_pool_of_encode {c : ClassFile} {bytes : Bytes} (h : c.encode = .ok bytes) :
    ∃ pool, c.pool.encode = .ok pool := by
  obtain ⟨pool, hpool, -⟩ := Except.bind_eq_ok.1 h
  exact ⟨pool, hpool⟩

/-- Around its pool a class is taken in the form it is written in. -/
theorem takes_decoder : decoder.Takes fun c taken =>
    ∃ (count : UInt16) (forms : List Bytes) (back : Bytes),
      taken = c.front ++ (Bytes.ofUInt16 count ++ forms.flatten) ++ back ∧
      List.Forall₂ Constant.StoredAs (c.pool.slots.toList.drop 1) forms ∧
      ∀ pool, c.pool.encode = .ok pool → c.encode = .ok (c.front ++ pool ++ back) := by
  refine takes_u32.bind ?_
  -- Behind the first four bytes the parts follow one another, each in the form it is written in.
  rintro found _ rfl
  split
  · exact .bind (P := fun _ _ => False) .throw fun _ _ h => h.elim
  · next hmagic =>
    obtain rfl := not_not.1 hmagic
    refine takes_u16.bind ?_
    rintro minorVersion _ rfl
    refine takes_u16.bind ?_
    rintro majorVersion _ rfl
    refine Pool.takes_decode.bind ?_
    rintro pool _ ⟨count, forms, rfl, hforms⟩
    refine takes_u16.bind ?_
    rintro access _ rfl
    refine takes_u16.bind ?_
    rintro thisClass _ rfl
    refine takes_u16.bind ?_
    rintro superClass _ rfl
    refine takes_u16.counted.bind ?_
    rintro interfaces _ ⟨n, names, hn, rfl, hnames⟩
    obtain rfl := eq_map_of_forall₂ hnames
    refine MemberInfo.takes_decodeList.bind fun fields fieldForm hfields => ?_
    refine MemberInfo.takes_decodeList.bind fun methods methodForm hmethods => ?_
    refine (Attribute.takes_decodeList .attributes).map
      fun attributes attributeForm hattributes => ?_
    refine ⟨count, forms, Bytes.ofUInt16 access ++ Bytes.ofUInt16 thisClass ++
      Bytes.ofUInt16 superClass ++ Bytes.ofUInt16 n ++ interfaces.toList.flatMap Bytes.ofUInt16 ++
      fieldForm ++ methodForm ++ attributeForm, ?_, hforms, fun poolForm hpool => ?_⟩
    · simp only [front, List.flatMap_def, List.append_assoc]
    · rw [encode, hpool, ← hn, encodeCount_toNat, hfields, hmethods, hattributes]
      exact congrArg Except.ok (by simp only [front, List.append_assoc])

/-- A class is written as it was stored iff its pool is, and whatever is written for it has in front
of the pool and behind it what was stored there. -/
theorem encode_eq_iff_of_decode {data : Bytes} {c : ClassFile} (h : decode data = .ok c) :
    ∃ (count : UInt16) (forms : List Bytes) (back : Bytes),
      data = c.front ++ (Bytes.ofUInt16 count ++ forms.flatten) ++ back ∧
      List.Forall₂ Constant.StoredAs (c.pool.slots.toList.drop 1) forms ∧
      (∀ pool, c.pool.encode = .ok pool → c.encode = .ok (c.front ++ pool ++ back)) ∧
      (c.encode = .ok data ↔ count.toNat = c.pool.size ∧
        List.Forall₂ Constant.Canonical (c.pool.slots.toList.drop 1) forms) := by
  obtain ⟨input, hrun, hrest, -⟩ := decode_ok h
  -- What stands in front of the pool and behind it is written as it was.
  obtain ⟨_, htaken, count, forms, back, rfl, hforms, hencode⟩ := takes_decoder _ _ _ hrun
  obtain rfl : data = _ := htaken.trans (by rw [hrest, List.append_nil])
  refine ⟨count, forms, back, rfl, hforms, hencode, ?_⟩
  rw [← Pool.encode_eq_iff hforms]
  -- The whole is written as it was exactly where the pool is.
  constructor
  · intro hdata
    obtain ⟨pool, hpool⟩ := exists_pool_of_encode hdata
    have heq := Except.ok.inj ((hencode pool hpool).symm.trans hdata)
    rw [hpool, List.append_cancel_left (List.append_cancel_right heq)]
  · exact hencode _

/-- A class `A` without members whose name is stored in two bytes, where one holds it. -/
def overlongBytes : Bytes :=
  [0xca, 0xfe, 0xba, 0xbe, 0, 0, 0, 52, 0, 3, 1, 0, 2, 0xc1, 0x81, 7, 0, 1, 0, 0x21, 0, 2, 0, 0, 0,
    0, 0, 0, 0, 0, 0, 0]

/-- What `overlongBytes` holds. -/
def overlong : ClassFile :=
  { pool := { slots := #[.unusable, .utf8 "A", .ofClass 1] }
    access := ⟨0x21⟩
    thisClass := 2
    superClass := 0 }

theorem decode_overlongBytes : decode overlongBytes = .ok overlong := rfl

/-- The shorter form is written. -/
theorem encode_eq_iff_of_decode_overlong :
    decode overlongBytes = .ok overlong ∧ overlong.encode ≠ .ok overlongBytes ∧
    ∃ (count : UInt16) (forms : List Bytes) (back : Bytes),
      overlongBytes = overlong.front ++ (Bytes.ofUInt16 count ++ forms.flatten) ++ back ∧
      List.Forall₂ Constant.StoredAs (overlong.pool.slots.toList.drop 1) forms ∧
      (∀ pool, overlong.pool.encode = .ok pool →
        overlong.encode = .ok (overlong.front ++ pool ++ back)) ∧
      (overlong.encode = .ok overlongBytes ↔ count.toNat = overlong.pool.size ∧
        List.Forall₂ Constant.Canonical (overlong.pool.slots.toList.drop 1) forms) := by
  refine ⟨decode_overlongBytes, ?_, encode_eq_iff_of_decode decode_overlongBytes⟩
  -- The two differ in the count of the text already.
  intro h
  cases h

end ClassFile

end Relabel
