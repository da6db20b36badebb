import Relabel.Proofs.ClassFile.Exactness

/-!
# Positions and slot numbers while a class is read

A decoder moves its position by the bytes it takes and never behind the end of its data. The number
of the next slot has 16 bits, and an entry moves it by one or two. It is the number of the slots
there are as long as these are 65535 at most. Only the greatest count, with a wide entry in slot
65534, takes it further: the number goes round to 0 and reading goes on.

## Main results

- `Decoder.Within`, `ClassFile.within_decoder`: reading stays within the data.
- `Pool.exists_end`: the loop over the slots ends, and its bound on the entries is never reached.
- `Pool.ReadsEntries.numbered`: what holds of slots and numbers however far the loop has come.
- `ClassFile.numbered_of_decode`: all of it for the bytes of a class file.
-/

namespace Relabel

namespace Decoder

variable {α β : Type} {n : Nat}

/-! ### Staying within the data -/

/-- The decoder takes `n` bytes or more off the front and moves the offset by as many. Where it misses
data, that is not behind their end. -/
structure Within (n : Nat) (d : Decoder α) : Prop where
  ok : ∀ {input a input'}, d input = .ok a input' → input.offset + n ≤ input'.offset ∧
    input'.offset + input'.rest.length = input.offset + input.rest.length
  truncated : ∀ {input offset input'}, d input = .error (.truncated offset) input' →
    offset ≤ input.offset + input.rest.length

namespace Within

/-- A decoder that takes some bytes takes none at least. -/
theorem mono {d : Decoder α} (h : d.Within n) : d.Within 0 where
  ok hrun := ⟨Nat.le_trans (Nat.le_add_right ..) (h.ok hrun).1, (h.ok hrun).2⟩
  truncated := h.truncated

/-- A value alone takes nothing. -/
theorem pure (a : α) : (Pure.pure a : Decoder α).Within 0 where
  ok hrun := by
    obtain ⟨-, rfl⟩ := EStateM.pure_eq_ok.1 hrun
    exact ⟨Nat.le_refl _, rfl⟩
  truncated hrun := (EStateM.pure_eq_error.1 hrun).elim

theorem throw {e : FormatError} (he : ∀ offset, e ≠ .truncated offset) :
    (MonadExcept.throw e : Decoder α).Within n where
  ok hrun := (EStateM.throw_eq_ok.1 hrun).elim
  truncated hrun := absurd (EStateM.throw_eq_error.1 hrun).1 (he _)

/-- What the first decoder takes is taken by both; the second goes on where the first ended. -/
theorem bind {d : Decoder α} {f : α → Decoder β} (h : d.Within n) (h' : ∀ a, (f a).Within 0) :
    (d >>= f).Within n where
  ok hrun := by
    obtain ⟨a, input₁, hd, hf⟩ := EStateM.bind_eq_ok.1 hrun
    have ⟨hle, htotal⟩ := h.ok hd
    have ⟨hle', htotal'⟩ := (h' a).ok hf
    omega
  truncated hrun := by
    rcases EStateM.bind_eq_error.1 hrun with hd | ⟨a, input₁, hd, hf⟩
    · exact h.truncated hd
    · exact (h.ok hd).2 ▸ (h' a).truncated hf

end Within

/-- What takes `n` bytes, or finds fewer, stays within the data. -/
theorem Within.of_front {d : Decoder α} (h : ∀ input,
    (∃ a rest, d input = .ok a { rest, offset := input.offset + n } ∧
      input.rest.length = rest.length + n) ∨
    d input = .error (.truncated input.offset) input) : d.Within n where
  ok {input a input'} hrun := by
    rcases h input with ⟨_, rest, hok, hlength⟩ | herror
    · obtain ⟨-, rfl⟩ := EStateM.Result.ok.inj (hok.symm.trans hrun)
      exact ⟨Nat.le_refl _, by dsimp only; omega⟩
    · cases herror.symm.trans hrun
  truncated {input offset input'} hrun := by
    rcases h input with ⟨_, _, hok, -⟩ | herror
    · cases hok.symm.trans hrun
    · cases herror.symm.trans hrun
      exact Nat.le_add_right ..

/-- A byte is taken where there is one. -/
theorem within_u8 : u8.Within 1 := by
  refine .of_front fun input => ?_
  unfold u8
  split
  · next hrest => exact .inl ⟨_, _, rfl, by simp [hrest]⟩
  · exact .inr rfl

/-- So are two bytes, one after the other. -/
theorem within_u16 : u16.Within 0 := by
  refine (Within.of_front fun input => ?_).mono (n := 2)
  unfold u16
  split
  · next hrest => exact .inl ⟨_, _, rfl, by simp [hrest]⟩
  · exact .inr rfl

/-- So are four. -/
theorem within_u32 : u32.Within 0 := by
  refine (Within.of_front fun input => ?_).mono (n := 4)
  unfold u32
  split
  · next hrest => exact .inl ⟨_, _, rfl, by simp [hrest]⟩
  · exact .inr rfl

theorem within_u64 : u64.Within 0 :=
  within_u32.bind fun _ => within_u32.bind fun _ => .pure _

/-- So are as many bytes as are asked for. -/
theorem within_bytes (k : Nat) : (bytes k).Within 0 := by
  refine (Within.of_front fun input => ?_).mono (n := k)
  unfold bytes
  dsimp only
  split
  · next htaken =>
    rw [List.length_take] at htaken
    exact .inl ⟨_, _, rfl, by rw [List.length_drop]; omega⟩
  · exact .inr rfl

/-- The rest is looked at without being taken. -/
theorem within_rest : rest.Within 0 where
  ok hrun := by
    obtain ⟨-, rfl⟩ := EStateM.Result.ok.inj hrun
    exact ⟨Nat.le_refl _, rfl⟩
  truncated hrun := by cases hrun

/-- However often it is repeated, a decoder stays within the data. -/
theorem Within.repeatFrom {d : Decoder α} (h : d.Within 0) (k : Nat) (read : Array α) :
    (repeatFrom d k read).Within 0 := by
  induction k generalizing read with
  | zero => exact .pure read
  | succ k ih => exact h.bind fun a => ih (read.push a)

theorem Within.counted {d : Decoder α} (h : d.Within 0) : (counted d).Within 0 :=
  within_u16.bind fun count => h.repeatFrom count.toNat #[]

end Decoder

open Decoder

theorem Attribute.within_decodeList : decodeList.Within 0 :=
  .counted <| within_u16.bind fun _ => within_u32.bind fun _ => (within_bytes _).bind fun _ =>
    .pure _

theorem MemberInfo.within_decode : decode.Within 0 :=
  within_u16.bind fun _ => within_u16.bind fun _ => within_u16.bind fun _ =>
    Attribute.within_decodeList.bind fun _ => .pure _

namespace Constant

/-- The entry of a text is read within the data. -/
theorem within_decodeUtf8 (index : UInt16) : (decodeUtf8 index).Within 0 := by
  refine within_u16.bind fun length => (within_bytes _).bind fun raw => ?_
  split
  · exact .pure _
  · exact .pure _
  · exact .throw nofun

theorem within_decodePair (make : UInt16 → UInt16 → Constant) : (decodePair make).Within 0 :=
  within_u16.bind fun _ => within_u16.bind fun _ => .pure _

/-- An entry takes its tag at least. -/
theorem within_decode (index : UInt16) : (decode index).Within 1 := by
  refine within_u8.bind fun tag => ?_
  split
  · exact within_decodeUtf8 index
  any_goals exact within_decodePair _
  any_goals exact within_u16.bind fun _ => .pure _
  any_goals exact within_u32.bind fun _ => .pure _
  any_goals exact within_u64.bind fun _ => .pure _
  · exact within_u8.mono.bind fun _ => within_u16.bind fun _ => .pure _
  · exact .throw nofun

end Constant

/-! ### The loop over the slots -/

namespace Pool

/-- The slots that these entries fill. -/
def slotsOf (read : List Constant) : List Constant :=
  read.flatMap Constant.filling

/-- Where the loop over the slots has come to. -/
structure Reading where
  /-- The number of the next slot, which has 16 bits. -/
  index : UInt16
  slots : Array Constant
  input : Input

namespace Reading

/-- The loop starts behind the first slot. -/
def start (input : Input) : Reading := { index := 1, slots := #[.unusable], input }

/-- The next slots are filled with an entry. -/
def fill (s : Reading) (c : Constant) (input : Input) : Reading where
  index := s.index + c.filling.length.toUInt16
  slots := s.slots ++ c.filling.toArray
  input

/-- The loop is through. Either all slots are filled, or the next entry cannot be read. -/
inductive Ends (count : UInt16) (s : Reading) :
    EStateM.Result FormatError Input (Array Constant) → Prop
  | filled (h : ¬ s.index < count) : Ends count s (.ok s.slots s.input)
  | failed {e : FormatError} {input : Input} (hindex : s.index < count)
      (h : Constant.decode s.index s.input = .error e input) : Ends count s (.error e input)

end Reading

variable {count : UInt16} {s s' t : Reading} {c : Constant} {read : List Constant}

/-- One pass of the loop reads this entry. -/
inductive ReadsEntry (count : UInt16) (s : Reading) (c : Constant) : Reading → Prop
  | mk {input : Input} (hindex : s.index < count)
      (h : Constant.decode s.index s.input = .ok c input) : ReadsEntry count s c (s.fill c input)

/-- Some passes of the loop read these entries one after the other. -/
inductive ReadsEntries (count : UInt16) (s : Reading) : List Constant → Reading → Prop
  | nil : ReadsEntries count s [] s
  | concat {read : List Constant} {s' t : Reading} {c : Constant}
      (h : ReadsEntries count s read s') (hlast : ReadsEntry count s' c t) :
      ReadsEntries count s (read ++ [c]) t

/-- An entry may also be read in front of others. -/
theorem ReadsEntries.cons (hfirst : ReadsEntry count s c s') (h : ReadsEntries count s' read t) :
    ReadsEntries count s (c :: read) t := by
  induction h with
  | nil => exact .concat .nil hfirst
  | concat _ hlast ih => exact .concat ih hlast

/-- The loop ends. Each entry takes a byte at least, so a bound beyond the bytes that are left is
not reached. -/
theorem exists_end (count : UInt16) {fuel : Nat} (s : Reading)
    (hfuel : s.input.rest.length < fuel) : ∃ read t, ReadsEntries count s read t ∧
      t.Ends count (decodeSlots count fuel s.index s.slots s.input) := by
  induction fuel generalizing s with
  | zero => exact absurd hfuel (Nat.not_lt_zero _)
  | succ fuel ih =>
    -- The number of the next slot says nothing about what is left to do: it may have gone round.
    -- The bytes that are left do.
    by_cases hindex : s.index < count
    · rw [decodeSlots_of_lt hindex]
      cases hentry : Constant.decode s.index s.input with
      | error e input =>
        refine ⟨[], s, .nil, ?_⟩
        rw [EStateM.bind_eq_error.2 (.inl hentry)]
        exact .failed hindex hentry
      | ok c input =>
        have ⟨hadvance, htotal⟩ := (Constant.within_decode s.index).ok hentry
        have hshorter : input.rest.length < fuel := by omega
        obtain ⟨read, t, hrun, hends⟩ := ih (s.fill c input) hshorter
        refine ⟨c :: read, t, .cons (.mk hindex hentry) hrun, ?_⟩
        rwa [EStateM.bind_of_eq_ok hentry]
    · rw [decodeSlots_of_not_lt hindex]
      exact ⟨[], s, .nil, .filled hindex⟩

theorem slotsOf_concat (read : List Constant) (c : Constant) :
    slotsOf (read ++ [c]) = slotsOf read ++ c.filling := by
  simp [slotsOf]

/-- Every entry fills a slot at least. -/
theorem length_le_slotsOf (read : List Constant) : read.length ≤ (slotsOf read).length := by
  induction read with
  | nil => exact Nat.le_refl _
  | cons c read ih =>
    rw [slotsOf, List.flatMap_cons, List.length_append, List.length_cons, Constant.length_filling]
    unfold slotsOf at ih
    split <;> omega

/-- A wide entry was read for slot 65534. Only the greatest count there is leaves room for one there,
and its second slot has the last number of 16 bits. -/
def Overflows (count : UInt16) (read : List Constant) : Prop :=
  count = 65535 ∧ ∃ before c after, read = before ++ c :: after ∧ c.isWide ∧
    1 + (slotsOf before).length = 65534

/-- The entry read last overflows, or one before it did. -/
theorem overflows_concat : Overflows count (read ++ [c]) ↔
    Overflows count read ∨ count = 65535 ∧ c.isWide ∧ 1 + (slotsOf read).length = 65534 := by
  constructor
  -- What stands behind the wide entry is nothing, or ends with the entry read last.
  · rintro ⟨hcount, before, d, after, heq, hwide, hbefore⟩
    rcases List.eq_nil_or_concat' after with rfl | ⟨after, last, rfl⟩
    · obtain ⟨rfl, hlast⟩ := List.append_inj' heq rfl
      obtain rfl := List.singleton_inj.1 hlast
      exact .inr ⟨hcount, hwide, hbefore⟩
    · rw [← List.cons_append, ← List.append_assoc] at heq
      exact .inl ⟨hcount, before, d, after, (List.append_inj' heq rfl).1, hwide, hbefore⟩
  · rintro (⟨hcount, before, d, after, rfl, h⟩ | ⟨hcount, h⟩)
    · exact ⟨hcount, before, d, after ++ [c], by simp, h⟩
    · exact ⟨hcount, read, c, [], rfl, h⟩

/-- What holds of the loop after it read these entries out of data of this length. -/
structure Numbered (count : UInt16) (length : Nat) (read : List Constant) (s : Reading) :
    Prop where
  within : s.input.offset + s.input.rest.length = length
  slots : s.slots.toList = .unusable :: slotsOf read
  /-- The number of the next slot is the number of slots, as far as 16 bits hold it. -/
  index : s.index = s.slots.size.toUInt16
  overflows : 65535 < s.slots.size ↔ Overflows count read
  /-- As long as they hold it, no more entries are read than the count leaves room for. -/
  length_le : s.slots.size ≤ 65535 → read.length ≤ count.toNat - 1

theorem Numbered.size {length : Nat} (hs : Numbered count length read s) :
    s.slots.size = 1 + (slotsOf read).length := by
  rw [← Array.length_toList, hs.slots, List.length_cons, Nat.add_comm]

/-- At the start no entry has been read. -/
theorem numbered_start (count : UInt16) (input : Input) :
    Numbered count (input.offset + input.rest.length) [] (.start input) where
  within := rfl
  slots := rfl
  index := rfl
  overflows := iff_of_false (by simp [Reading.start]) (by simp [Overflows])
  length_le _ := Nat.zero_le _

/-- One more entry keeps all this. Only a second slot past the last number makes the number of the
next slot go wrong. -/
theorem Numbered.step {length : Nat} (hs : Numbered count length read s)
    (h : ReadsEntry count s c t) : Numbered count length (read ++ [c]) t := by
  obtain ⟨hindex, hentry⟩ := h
  have hgrown : (s.slots ++ c.filling.toArray).size = s.slots.size + c.filling.length := by simp
  have hwidth := Constant.length_filling c
  -- Before the number goes round, the count bounds the slots that the entry finds filled.
  have hbefore (hfits : s.slots.size ≤ 65535) : s.slots.size < count.toNat := by
    have hcount := UInt16.lt_iff_toNat_lt.1 hindex
    rwa [hs.index, toNat_toUInt16_of_lt (Nat.lt_succ_of_le hfits)] at hcount
  have hcount : count = 65535 ↔ count.toNat = 65535 := UInt16.toNat_inj.symm
  have hmax := count.toNat_lt
  refine ⟨?_, ?_, ?_, ?_, ?_⟩
  -- Positions, slots and the number of the next: an entry moves each of them once.
  · exact ((Constant.within_decode s.index).ok hentry).2.trans hs.within
  · rw [Reading.fill, slotsOf_concat, Array.toList_append, hs.slots, List.cons_append]
  · show s.index + _ = (s.slots ++ c.filling.toArray).size.toUInt16
    rw [hgrown, hs.index]
    exact (UInt16.ofNat_add ..).symm
  -- Only a wide entry that finds one slot free takes the slots beyond 65535.
  · show 65535 < (s.slots ++ c.filling.toArray).size ↔ _
    rw [overflows_concat, ← hs.overflows, hgrown, ← hs.size, hcount]
    split at hwidth
    · next hwide =>
      simp only [hwide, true_and]
      omega
    · next hnarrow =>
      simp only [hnarrow, Bool.false_eq_true, false_and, and_false, or_false]
      omega
  · intro hfits
    rw [Reading.fill, hgrown] at hfits
    have hroom := hbefore (by omega)
    have hread := length_le_slotsOf read
    rw [hs.size] at hroom
    rw [List.length_append, List.length_singleton]
    omega

/-- However far the loop has come. -/
theorem ReadsEntries.numbered {length : Nat} (h : ReadsEntries count s read t)
    (hs : Numbered count length [] s) : Numbered count length read t := by
  induction h with
  | nil => exact hs
  | concat _ hlast ih => exact ih.step hlast

/-- The loop over the slots is all that a pool takes behind its count. -/
theorem decode_eq_bind (count : UInt16) (rest : Bytes) (offset : Nat) :
    decode { rest := Bytes.ofUInt16 count ++ rest, offset } =
      (decodeSlots count (rest.length + 1) 1 #[.unusable] >>= fun slots => pure { slots })
        { rest, offset := offset + 2 } := by
  rw [decode, EStateM.bind_of_eq_ok (u16_append count rest offset),
    EStateM.bind_of_eq_ok (show Decoder.rest _ = .ok rest _ from rfl)]

/-- The loop stays within the data. -/
theorem within_decodeSlots (count : UInt16) (fuel : Nat) (index : UInt16)
    (slots : Array Constant) : (decodeSlots count fuel index slots).Within 0 := by
  induction fuel generalizing index slots with
  | zero => exact .pure slots
  | succ fuel ih =>
    by_cases hindex : index < count
    · rw [decodeSlots_of_lt hindex]
      exact (Constant.within_decode index).mono.bind fun c => ih _ _
    · rw [decodeSlots_of_not_lt hindex]
      exact .pure slots

theorem within_decode : decode.Within 0 :=
  within_u16.bind fun count => within_rest.bind fun rest =>
    (within_decodeSlots count (rest.length + 1) 1 #[.unusable]).bind fun _ => .pure _

end Pool

namespace ClassFile

/-- A class is read within the data. -/
theorem within_decoder : decoder.Within 0 := by
  refine within_u32.bind fun found => ?_
  split
  · exact (Within.throw nofun : (throw (.badMagic found) : Decoder ClassFile).Within 0)
  · refine within_u16.bind fun _ => within_u16.bind fun _ => Pool.within_decode.bind fun _ => ?_
    refine within_u16.bind fun _ => within_u16.bind fun _ => within_u16.bind fun _ => ?_
    refine within_u16.counted.bind fun _ => MemberInfo.within_decode.counted.bind fun _ => ?_
    exact MemberInfo.within_decode.counted.bind fun _ =>
      Attribute.within_decodeList.bind fun _ => .pure _

/-- The bytes of a class file up to the entries of its pool. -/
def opening (minorVersion majorVersion count : UInt16) : Bytes :=
  Bytes.ofUInt32 magic ++ Bytes.ofUInt16 minorVersion ++ Bytes.ofUInt16 majorVersion ++
    Bytes.ofUInt16 count

/-- What is read of a pool decides what is read of its class. -/
theorem decode_opening (minorVersion majorVersion count : UInt16) (rest : Bytes) :
    match Pool.decode { rest := Bytes.ofUInt16 count ++ rest, offset := 8 } with
    | .ok pool _ =>
      ∀ c, decode (opening minorVersion majorVersion count ++ rest) = .ok c → c.pool = pool
    | .error e _ => decode (opening minorVersion majorVersion count ++ rest) = .error e := by
  simp only [opening, List.append_assoc, decode, decoder]
  -- The magic number and the versions are read without fail.
  rw [EStateM.bind_of_eq_ok (u32_append magic _ 0), if_neg (not_not.2 rfl),
    EStateM.bind_of_eq_ok (u16_append minorVersion _ _),
    EStateM.bind_of_eq_ok (u16_append majorVersion _ _)]
  cases hpool : Pool.decode { rest := Bytes.ofUInt16 count ++ rest, offset := 8 } with
  | ok pool input =>
    -- What stands behind the pool may still fail, but leaves the pool as it is.
    intro c h
    rw [EStateM.bind_of_eq_ok hpool] at h
    split at h
    · cases h
    · next hrest =>
      split at h
      · obtain ⟨_, -, h⟩ := Except.bind_eq_ok.1 h
        obtain rfl := Except.pure_eq_ok.1 h
        simp only [EStateM.bind_eq_ok, EStateM.pure_eq_ok] at hrest
        obtain ⟨_, _, -, _, _, -, _, _, -, _, _, -, _, _, -, _, _, -, _, _, -, rfl, -⟩ := hrest
        rfl
      · cases h
  | error e input =>
    rw [EStateM.bind_eq_error.2 (.inl hpool)]

/-- The loop over the slots is through, and so decides what is read of the class: its slots, or that
there is none. -/
inductive Decides (count : UInt16) (s : Pool.Reading) (result : Except FormatError ClassFile) : Prop
  | filled (h : ¬ s.index < count) (hslots : ∀ c, result = .ok c → c.pool.slots = s.slots)
  | failed {e : FormatError} {input : Input} (hindex : s.index < count)
      (h : Constant.decode s.index s.input = .error e input) (hresult : result = .error e)

/-- The loop over the slots of a class ends. -/
theorem exists_decides (minorVersion majorVersion count : UInt16) (rest : Bytes) :
    ∃ read s, Pool.ReadsEntries count (.start { rest, offset := 10 }) read s ∧
      Decides count s (decode (opening minorVersion majorVersion count ++ rest)) := by
  -- However the loop ends, the class file does: with the slots, or with the same error.
  obtain ⟨read, s, hrun, hends⟩ :=
    Pool.exists_end count (.start { rest, offset := 10 }) (Nat.lt_succ_self rest.length)
  refine ⟨read, s, hrun, ?_⟩
  have hclass := decode_opening minorVersion majorVersion count rest
  rw [Pool.decode_eq_bind] at hclass
  cases hslots : Pool.decodeSlots count (rest.length + 1) 1 #[.unusable]
      { rest, offset := 10 } with
  | ok slots input =>
    rw [EStateM.bind_of_eq_ok hslots] at hclass
    cases hslots ▸ hends with
    | filled h => exact .filled h fun c hc => congrArg Pool.slots (hclass c hc)
  | error e input =>
    rw [EStateM.bind_eq_error.2 (.inl hslots)] at hclass
    cases hslots ▸ hends with
    | failed hindex h => exact .failed hindex h hclass

/-- Where the name of a class cannot be read, that is not for want of data. -/
theorem name_ne_truncated (c : ClassFile) (offset : Nat) : c.name ≠ .error (.truncated offset) := by
  unfold name Pool.className Pool.utf8
  split
  · split <;> nofun
  · nofun

/-- Data are missed at their end or before it. -/
theorem offset_le_of_truncated {data : Bytes} {offset : Nat}
    (h : decode data = .error (.truncated offset)) : offset ≤ data.length := by
  rw [decode] at h
  split at h
  · next hdecoder =>
    obtain rfl := Except.error.inj h
    simpa using within_decoder.truncated hdecoder
  · next c input _ =>
    split at h
    · rcases Except.bind_eq_error.1 h with hname | ⟨_, -, h⟩
      · exact absurd hname (name_ne_truncated c offset)
      · cases h
    · cases h

/-- Only what begins as a class file does is read. -/
theorem exists_opening_of_decode {data : Bytes} {c : ClassFile} (h : decode data = .ok c) :
    ∃ (minorVersion majorVersion count : UInt16) (rest : Bytes),
      data = opening minorVersion majorVersion count ++ rest := by
  obtain ⟨count, forms, back, rfl, -⟩ := encode_eq_iff_of_decode h
  exact ⟨c.minorVersion, c.majorVersion, count, forms.flatten ++ back, by
    simp only [front, opening, List.append_assoc]⟩

/-- Whatever the bytes, reading stays within them and ends. A class is only read from what begins as
one. Then the loop over the slots comes to an end, which decides what is read, and however far it has
come, the number of the next slot is the number of slots, as long as there are 65535 at most. -/
theorem numbered_of_decode (data : Bytes) :
    (∀ c input, decoder { rest := data } = .ok c input →
      input.offset + input.rest.length = data.length) ∧
    (∀ offset, decode data = .error (.truncated offset) → offset ≤ data.length) ∧
    ((∃ minorVersion majorVersion count rest,
      data = opening minorVersion majorVersion count ++ rest) ∨ ∃ e, decode data = .error e) ∧
    ∀ (minorVersion majorVersion count : UInt16) (rest : Bytes),
      data = opening minorVersion majorVersion count ++ rest →
      (∃ read s, Pool.ReadsEntries count (.start { rest, offset := 10 }) read s ∧
        Decides count s (decode data)) ∧
      ∀ read s, Pool.ReadsEntries count (.start { rest, offset := 10 }) read s →
        Pool.Numbered count data.length read s := by
  refine ⟨fun c input h => ?_, fun offset h => offset_le_of_truncated h, ?_, ?_⟩
  · simpa using (within_decoder.ok h).2
  · cases h : decode data with
    | ok c => exact .inl (exists_opening_of_decode h)
    | error e => exact .inr ⟨e, rfl⟩
  · rintro minorVersion majorVersion count rest rfl
    -- The opening takes ten bytes, so the numbers are those of a run that starts after them.
    refine ⟨exists_decides minorVersion majorVersion count rest, fun read s hrun => ?_⟩
    have hlength : (opening minorVersion majorVersion count ++ rest).length = 10 + rest.length :=
      List.length_append
    have hstart := Pool.numbered_start count { rest, offset := 10 }
    rw [hlength]
    exact hrun.numbered hstart

/-- String constants with a wide one behind them. -/
def stringsAndLong (n : Nat) : Bytes :=
  (List.replicate n [8, 0, 1]).flatten ++ [5, 0, 0, 0, 0, 0, 0, 0, 0]

/-- Some strings and then a wide entry are read from what is left, by induction on how many there
are. -/
theorem readsEntries_stringsAndLong (n : Nat) {count : UInt16} (s : Pool.Reading)
    (hcount : s.index.toNat + n < count.toNat) (hrest : s.input.rest = stringsAndLong n) :
    ∃ t, Pool.ReadsEntries count s (List.replicate n (.string 1) ++ [.long 0]) t := by
  induction n generalizing s with
  | zero =>
    obtain ⟨index, slots, _, offset⟩ := s
    obtain rfl := hrest
    exact ⟨_, .concat .nil (.mk (UInt16.lt_iff_toNat_lt.2 hcount) rfl)⟩
  | succ n ih =>
    obtain ⟨index, slots, _, offset⟩ := s
    obtain rfl := hrest
    dsimp only at hcount
    let s' : Pool.Reading := ⟨index + 1, slots ++ #[.string 1], stringsAndLong n, offset + 3⟩
    have hfirst : Pool.ReadsEntry count _ (.string 1) s' :=
      .mk (s := ⟨index, slots, stringsAndLong (n + 1), offset⟩)
        (UInt16.lt_iff_toNat_lt.2 (by dsimp only; omega)) rfl
    -- There is room for the others, so the number of the next slot has not gone round.
    have hnext : (index + 1).toNat + n < count.toNat := by
      have hmax := count.toNat_lt
      rw [UInt16.toNat_add, UInt16.toNat_one]
      omega
    obtain ⟨t, hrun⟩ := ih s' hnext rfl
    exact ⟨t, .cons hfirst hrun⟩

/-- Where the greatest count has a wide entry in its last slot, the number goes round to 0. -/
theorem numbered_of_decode_stringsAndLong :
    ∃ s, Pool.ReadsEntries 65535 (.start { rest := stringsAndLong 65533, offset := 10 })
      (List.replicate 65533 (.string 1) ++ [.long 0]) s ∧ s.slots.size = 65536 ∧ s.index = 0 := by
  have hcount : (1 : UInt16).toNat + 65533 < (65535 : UInt16).toNat := by decide
  obtain ⟨s, hrun⟩ := readsEntries_stringsAndLong 65533
    (.start { rest := stringsAndLong 65533, offset := 10 }) hcount rfl
  -- The wide entry stands in slot 65534, and the slot after it would be number 65536.
  have hs := ((numbered_of_decode (opening 0 52 65535 ++ stringsAndLong 65533)).2.2.2
    0 52 65535 _ rfl).2 _ s hrun
  have hsize : s.slots.size = 65536 := by
    have hstrings (n : Nat) : (Pool.slotsOf (List.replicate n (.string 1))).length = n := by
      simp [Pool.slotsOf, List.length_flatMap, Constant.filling, Constant.isWide]
    rw [hs.size, Pool.slotsOf_concat, List.length_append, hstrings]
    rfl
  exact ⟨s, hrun, hsize, by rw [hs.index, hsize]; rfl⟩

end ClassFile

end Relabel
