import Mathlib.Algebra.Group.Nat.Defs
import Mathlib.Data.List.Infix
import Relabel.Entries.Basic

/-!
# What the digest of entries tells apart

The digest is taken of one chunk after the other: a path, a zero, the number of bytes in eight bytes,
and the bytes. The number says where a chunk ends, but the zero says where its path ends only as long
as no path holds one: a path may go on behind a zero with what reads as the number of bytes after a
shorter path. Where no path of one side goes on so behind a path of the other, what the digest is
taken of tells all entries.

## Main results

- `eq_and_eq_of_digestChunk_append`: a chunk in front of any bytes tells its entry and these bytes.
- `digestInput_eq_iff`: what the digest is taken of is the same for the same entries only.
- `digestChunk_twin`: two entries with different paths and the same chunk.
-/

namespace Relabel

/-! ### Numbers and texts as bytes -/

namespace Bytes

/-- Numbers that fit are told apart by their bytes. -/
theorem littleEndian_inj {n x y : Nat} (hx : x < 256 ^ n) (hy : y < 256 ^ n) :
    littleEndian n x = littleEndian n y ↔ x = y := by
  refine ⟨fun h => ?_, fun h => h ▸ rfl⟩
  induction n generalizing x y with
  | zero => omega
  | succ n ih =>
    rw [Nat.pow_succ] at hx hy
    obtain ⟨hlow, hhigh⟩ := List.cons.inj h
    have hlow : x % 256 = y % 256 := by simpa using congrArg UInt8.toNat hlow
    have hhigh : x / 256 = y / 256 := ih (by omega) (by omega) hhigh
    omega

/-- A number below 256 takes the first of its bytes only. -/
theorem littleEndian_succ_of_lt {x : Nat} (n : Nat) (hx : x < 256) :
    littleEndian (n + 1) x = x.toUInt8 :: List.replicate n 0 := by
  have hzero : ∀ n, littleEndian n 0 = List.replicate n 0 := by
    intro n
    induction n with
    | zero => rfl
    | succ n ih => rw [littleEndian, Nat.zero_div, ih, List.replicate_succ]; rfl
  rw [littleEndian, Nat.div_eq_of_lt hx, hzero]

/-- The bytes of a text are those of its characters in a row. -/
theorem ofText_eq_flatMap (text : String) :
    ofText text = text.toList.flatMap String.utf8EncodeChar := by
  have hdata : text.toByteArray = (text.toList.flatMap String.utf8EncodeChar).toByteArray := by
    conv_lhs => rw [← String.ofList_toList (s := text), String.toByteArray_ofList]
    rfl
  rw [ofText, String.toUTF8, hdata, List.data_toByteArray]

/-- Texts are told apart by their bytes. -/
theorem ofText_inj {p q : String} : ofText p = ofText q ↔ p = q := by
  rw [ofText, ofText, Array.toList_inj, ← ByteArray.ext_iff, String.toUTF8, String.toUTF8,
    String.toByteArray_inj]

theorem ofText_append (p q : String) : ofText (p ++ q) = ofText p ++ ofText q := by
  simp [ofText_eq_flatMap]

/-- A text is in front of another if its bytes are. -/
theorem prefix_of_ofText_append {p : List Char} {q : String} {rest : Bytes}
    (h : p.flatMap String.utf8EncodeChar ++ rest = ofText q) : p <+: q.toList := by
  refine List.isPrefix_of_utf8Encode_append_eq_utf8Encode rest.toByteArray ?_
  rw [ofText_eq_flatMap] at h
  rw [List.utf8Encode, List.utf8Encode, ← h]
  exact List.toByteArray_append.symm

end Bytes

namespace Entries

variable {p q path : String} {b c r s : Bytes} {l l' : List (String × Bytes)} {e e' : Entries}

/-! ### Paths with a zero behind -/

/-- Whether a path has all of another and a zero character in front. -/
def GoesOn (p q : String) : Prop :=
  p.toList ++ [Char.ofNat 0] <+: q.toList

instance : Decidable (GoesOn p q) :=
  inferInstanceAs (Decidable (_ <+: _))

/-- A zero behind a path that stands within another is a character of the other. -/
theorem goesOn_of_ofText_append (h : Bytes.ofText p ++ 0 :: r = Bytes.ofText q) : GoesOn p q := by
  have hbytes : (p.toList ++ [Char.ofNat 0]).flatMap String.utf8EncodeChar ++ r = Bytes.ofText q := by
    rw [← h, Bytes.ofText_eq_flatMap, List.flatMap_append, List.append_assoc]
    rfl
  exact Bytes.prefix_of_ofText_append hbytes

/-- A zero ends a path, unless the path goes on behind it. -/
theorem eq_or_goesOn (h : Bytes.ofText p ++ 0 :: r = Bytes.ofText q ++ 0 :: s) :
    p = q ∧ r = s ∨ GoesOn p q ∨ GoesOn q p := by
  -- One path is in front of the other, and ends with it or goes on behind the zero.
  rcases List.append_eq_append_iff.1 h with ⟨more, hq, hmore⟩ | ⟨more, hp, hmore⟩
  · cases more with
    | nil =>
      rw [List.append_nil, Bytes.ofText_inj] at hq
      exact .inl ⟨hq.symm, (List.cons.inj hmore).2⟩
    | cons zero more =>
      obtain ⟨rfl, -⟩ := List.cons.inj hmore
      exact .inr (.inl (goesOn_of_ofText_append hq.symm))
  · cases more with
    | nil =>
      rw [List.append_nil, Bytes.ofText_inj] at hp
      exact .inl ⟨hp, (List.cons.inj hmore).2.symm⟩
    | cons zero more =>
      obtain ⟨rfl, -⟩ := List.cons.inj hmore
      exact .inr (.inr (goesOn_of_ofText_append hp.symm))

/-! ### Chunks -/

/-- The numbers of bytes that eight bytes can hold, as those of all byte strings of a machine. -/
def Sized (l : List (String × Bytes)) : Prop :=
  ∀ x ∈ l, x.2.length < 2 ^ 64

/-- No path on either side goes on behind one on the other side with a zero. -/
def Apart (l l' : List (String × Bytes)) : Prop :=
  ∀ x ∈ l, ∀ y ∈ l', ¬ GoesOn x.1 y.1 ∧ ¬ GoesOn y.1 x.1

instance : Decidable (Sized l) :=
  inferInstanceAs (Decidable (∀ x ∈ l, _))

instance : Decidable (Apart l l') :=
  inferInstanceAs (Decidable (∀ x ∈ l, ∀ y ∈ l', _))

theorem digestChunk_append (path : String) (b r : Bytes) :
    digestChunk (path, b) ++ r =
      Bytes.ofText path ++ 0 :: (Bytes.littleEndian 8 b.length ++ (b ++ r)) := by
  simp [digestChunk]

/-- A chunk in front of any bytes tells its entry and these bytes. -/
theorem eq_and_eq_of_digestChunk_append (hb : b.length < 2 ^ 64) (hc : c.length < 2 ^ 64)
    (hpq : ¬ GoesOn p q) (hqp : ¬ GoesOn q p)
    (h : digestChunk (p, b) ++ r = digestChunk (q, c) ++ s) : (p, b) = (q, c) ∧ r = s := by
  rw [digestChunk_append, digestChunk_append] at h
  obtain ⟨rfl, hrest⟩ := (eq_or_goesOn h).resolve_right (not_or.2 ⟨hpq, hqp⟩)
  obtain ⟨hnumber, hrest⟩ := List.append_inj hrest (by simp)
  have hlength : b.length = c.length := (Bytes.littleEndian_inj hb hc).1 hnumber
  obtain ⟨rfl, rfl⟩ := List.append_inj hrest hlength
  exact ⟨rfl, rfl⟩

theorem digestChunk_ne_nil (x : String × Bytes) : digestChunk x ≠ [] := by
  simp [digestChunk]

/-- All chunks together tell all entries. -/
theorem eq_of_flatMap_digestChunk (hl : Sized l) (hl' : Sized l') (hapart : Apart l l')
    (h : l.flatMap digestChunk = l'.flatMap digestChunk) : l = l' := by
  induction l generalizing l' with
  | nil =>
    cases l' with
    | nil => rfl
    | cons y l' => exact absurd (List.append_eq_nil_iff.1 h.symm).1 (digestChunk_ne_nil y)
  | cons x l ih =>
    cases l' with
    | nil => exact absurd (List.append_eq_nil_iff.1 h).1 (digestChunk_ne_nil x)
    | cons y l' =>
      obtain ⟨hx, hl⟩ := List.forall_mem_cons.1 hl
      obtain ⟨hy, hl'⟩ := List.forall_mem_cons.1 hl'
      have hxy := hapart x List.mem_cons_self y List.mem_cons_self
      -- The first chunks tell the first entries, which leaves the same bytes for the others.
      rw [List.flatMap_cons, List.flatMap_cons] at h
      obtain ⟨hentry, h⟩ := eq_and_eq_of_digestChunk_append hx hy hxy.1 hxy.2 h
      have hrest : Apart l l' := fun z hz w hw =>
        hapart z (List.mem_cons_of_mem _ hz) w (List.mem_cons_of_mem _ hw)
      exact congrArg₂ List.cons hentry (ih hl hl' hrest h)

/-- The bytes of an entry may read as the rest of the path, and the chunk, of another one. -/
theorem digestChunk_twin (path : String) (hc : c.length < 120) :
    digestChunk (path, Bytes.littleEndian 8 c.length ++ c) =
      digestChunk (path ++ String.ofList
        (Char.ofNat 0 :: Char.ofNat (c.length + 8) :: List.replicate 6 (Char.ofNat 0)), c) := by
  -- The length of the longer contents is one byte and seven zeros.
  have hnumber : Bytes.littleEndian 8 (Bytes.littleEndian 8 c.length ++ c).length =
      (c.length + 8).toUInt8 :: List.replicate 7 0 := by
    rw [List.length_append, Bytes.length_littleEndian, Nat.add_comm,
      Bytes.littleEndian_succ_of_lt 7 (by omega)]
  have hchar : String.utf8EncodeChar (Char.ofNat (c.length + 8)) = [(c.length + 8).toUInt8] := by
    have hval : (Char.ofNat (c.length + 8)).val.toNat = c.length + 8 := by
      rw [Char.ofNat, dif_pos (.inl (by omega))]
      rfl
    rw [String.utf8EncodeChar, hval, if_pos (by omega)]
  have hpath : Bytes.ofText (String.ofList
      (Char.ofNat 0 :: Char.ofNat (c.length + 8) :: List.replicate 6 (Char.ofNat 0))) =
      0 :: (c.length + 8).toUInt8 :: List.replicate 6 0 := by
    rw [Bytes.ofText_eq_flatMap, String.toList_ofList, List.flatMap_cons, List.flatMap_cons, hchar]
    rfl
  simp only [digestChunk, hnumber, Bytes.ofText_append, hpath]
  simp

/-! ### Entries -/

/-- The list of the entries is as good as the entries. -/
theorem toList_eq_iff : e.toList = e'.toList ↔ ∀ path : String, e.byPath[path]? = e'.byPath[path]? := by
  rw [toList, toList, ← Std.TreeMap.equiv_iff_toList_eq]
  exact ⟨fun h path => h.getElem?_eq, Std.TreeMap.Equiv.of_forall_constGet?_eq⟩

/-- What the digest is taken of is the same for two sets of entries if and only if they have the same
paths with the same bytes, as long as no path of one goes on behind a path of the other with a
zero. -/
theorem digestInput_eq_iff (hsized : Sized e.toList) (hsized' : Sized e'.toList)
    (hapart : Apart e.toList e'.toList) :
    e.digestInput = e'.digestInput ↔ ∀ path : String, e.byPath[path]? = e'.byPath[path]? := by
  rw [← toList_eq_iff]
  refine ⟨eq_of_flatMap_digestChunk hsized hsized' hapart, fun h => ?_⟩
  rw [digestInput, digestInput, h]

theorem digestInput_eq_iff_zeroInPath :
    let e : Entries := ⟨.ofList [("c", ([50] : Bytes)), ("a\x00b", [49])]⟩
    let e' : Entries := ⟨.ofList [("a\x00b", ([49, 50] : Bytes)), ("c", [])]⟩
    Sized e.toList ∧ Sized e'.toList ∧ Apart e.toList e'.toList ∧
      (e.digestInput = e'.digestInput ↔ ∀ path : String, e.byPath[path]? = e'.byPath[path]?) := by
  intro e e'
  have hsized : Sized e.toList := by decide +kernel
  have hsized' : Sized e'.toList := by decide +kernel
  have hapart : Apart e.toList e'.toList := by decide +kernel
  exact ⟨hsized, hsized', hapart, digestInput_eq_iff hsized hsized' hapart⟩

/-- Whatever a path is, the digest does not tell all entries with this path. -/
theorem exists_digestInput_eq (path : String) :
    ∃ e e' : Entries, e.byPath[path]? ≠ e'.byPath[path]? ∧ e.digestInput = e'.digestInput := by
  have htwin := digestChunk_twin path (c := []) (by decide)
  -- The longer path takes what the digest reads as the bytes of the shorter one.
  generalize hlonger : path ++ String.ofList _ = longer at htwin
  have hne : longer ≠ path := by
    rintro rfl
    simpa using congrArg String.length hlonger
  refine ⟨⟨.ofList [(path, Bytes.littleEndian 8 0)]⟩, ⟨.ofList [(longer, [])]⟩, ?_, ?_⟩
  · simp [Std.TreeMap.ofList_singleton, hne]
  · show digestChunk _ ++ [] = digestChunk _ ++ []
    rw [List.append_nil, List.append_nil]
    exact htwin

end Entries

end Relabel
