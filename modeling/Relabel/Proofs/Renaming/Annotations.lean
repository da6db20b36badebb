import Relabel.Proofs.Renaming.AnnotationForm

/-!
# Annotations keep their form

Patching follows the form of a payload: each step takes the fields it is made for and writes what
they are renamed to. This is shown for the steps one by one, for rows of steps, and by induction on
the depth for annotations inside values inside annotations. A step that runs out of depth fails, so
a patch that succeeds has gone all the way down.

## Main results

- `Patch.Renames`: a step takes fields and writes what they are renamed to.
- `Scope.renames_patchAnnotation_patchValue`: annotations and values.
- `Scope.payloadRenamed_of_patchPayload`: the payload of an attribute.
- `Scope.annotationsRenamed_of_renameAttributesTo`: a list of attributes.
- `ClassFile.annotationsRenamed_of_relabel`: a class and its members.
-/

namespace Relabel

open AnnotationField

namespace Scope

open Pool

variable {s : Scope} {p q final : Pool} {i j : UInt16}

/-! ### Names that are searched for -/

/-- Where all slots of the source have indices, a search leads to what it asks for, and the old
texts are there. -/
def Tracks (s : Scope) (p : Pool) : Prop :=
  s.source.Searchable → p.Searchable ∧ s.source.Keeps p

/-- Searches keep what is searched for and the old texts. -/
theorem Tracks.of_interns (hp : s.Tracks p) (h : p.Interns q) : s.Tracks q := by
  intro hs
  obtain ⟨hsearch, hkeeps⟩ := hp hs
  obtain ⟨hsearch', happends⟩ := hsearch.of_interns h
  exact ⟨hsearch', hkeeps.trans fun i c _ hc => happends.old i c hc⟩

/-- The index of a text reads as the text, also after further searches. -/
theorem Tracks.internText {text : String} (hp : s.Tracks p)
    (h : Pool.internText text p = .ok j q) (hfinal : q.Interns final)
    (hs : s.source.Searchable) : final.utf8 j = .ok text := by
  obtain ⟨hsearch, -⟩ := hp hs
  have hread := (hsearch.internText h).2.2
  obtain ⟨hsearch', -⟩ := hsearch.of_interns (OnlyInterns.internText text _ _ _ h)
  have happends := (hsearch'.of_interns hfinal).2
  exact Keeps.utf8 (fun i c _ hc => happends.old i c hc) hread

/-- The index that takes the place of an old one leads to the new name, if there is one. -/
theorem Tracks.newIndex {new : Option String} (hp : s.Tracks p)
    (h : Scope.newIndex new i p = .ok j q) (hfinal : q.Interns final) :
    Replaces s.source final i new j := by
  cases new with
  | some new => exact .new fun hs => hp.internText h hfinal hs
  | none =>
    obtain ⟨rfl, -⟩ := EStateM.pure_eq_ok.1 h
    exact .same

/-- The index that takes the place of a descriptor leads to its new form. -/
theorem Tracks.mapDescriptor {old : String} (hp : s.Tracks p) (hold : s.source.utf8 i = .ok old)
    (h : s.mapDescriptor i p = .ok j q) (hfinal : q.Interns final) :
    Replaces s.source final i (some (s.names.mapDescriptor old)) j := by
  simp only [Scope.mapDescriptor, Scope.mapText, EStateM.bind_eq_ok, Scope.text,
    EStateM.ofExcept_eq_ok] at h
  obtain ⟨_, _, ⟨hold', rfl⟩, h⟩ := h
  obtain rfl := Except.ok.inj (hold.symm.trans hold')
  refine .new fun hs => ?_
  -- A text that stays is kept under its own index; another text is searched or appended.
  split at h
  · next hsame =>
    obtain ⟨rfl, rfl⟩ := EStateM.pure_eq_ok.1 h
    rw [hsame]
    exact ((hp.of_interns hfinal) hs).2.utf8 hold
  · exact hp.internText h hfinal hs

end Scope

/-! ### Steps that rename -/

namespace Patch

variable {α β : Type} {s : Scope} {fields fields' : List AnnotationField} {P : α → Prop}
  {Q : β → Prop}

/-- A form that is read from the front of the input is taken off it. -/
theorem read_ok_of_reads {d : Decoder α} {taken rest : Bytes} {a b : α} {st st' : PatchState}
    {p q : Pool} (hd : d.Reads taken a) (hrest : st.input.rest = taken ++ rest)
    (h : read d st p = .ok (b, st') q) :
    b = a ∧ st'.input.rest = rest ∧ st'.written = st.written ∧ q = p := by
  obtain ⟨_, input, hread, ⟨⟩, rfl⟩ := read_eq_ok.1 h
  obtain ⟨offset, hd⟩ := hd rest st.input.offset
  rw [← hrest, hread] at hd
  cases hd
  exact ⟨rfl, rfl, rfl, rfl⟩

/-- Where the step is given these fields and succeeds, it takes them and nothing else, and writes
what they are renamed to. The new names are read in any pool that comes of further searches. -/
def Renames (s : Scope) (fields : List AnnotationField) (act : Patch α) (P : α → Prop) : Prop :=
  ∀ st rest p a st' q, st.input.rest = form fields ++ rest → s.Tracks p →
    act st p = .ok (a, st') q →
    P a ∧ p.Interns q ∧ st'.input.rest = rest ∧
      ∀ final, q.Interns final → ∃ pieces,
        List.Forall₂ (Renamed s.names s.source final) fields pieces ∧
        st'.written = pieces.flatten.reverse ++ st.written

namespace Renames

theorem pure {a : α} (h : P a) : Renames s [] (Pure.pure a : Patch α) P := by
  intro st rest p b st' q hrest _ hrun
  obtain ⟨⟨⟩, rfl⟩ := pure_eq_ok.1 hrun
  exact ⟨h, .refl _, hrest, fun final _ => ⟨[], .nil, rfl⟩⟩

/-- What two steps take is taken by the first and then by the second. -/
theorem bind {act : Patch α} {next : α → Patch β} (h : Renames s fields act P)
    (h' : ∀ a, P a → Renames s fields' (next a) Q) :
    Renames s (fields ++ fields') (act >>= next) Q := by
  intro st rest p b st' q hrest hp hrun
  obtain ⟨a, st₁, p₁, hact, hnext⟩ := bind_eq_ok.1 hrun
  rw [form_append, List.append_assoc] at hrest
  obtain ⟨ha, hinterns, hrest₁, hpieces⟩ := h _ _ _ _ _ _ hrest hp hact
  obtain ⟨hb, hinterns', hrest', hpieces'⟩ :=
    h' a ha _ _ _ _ _ _ hrest₁ (hp.of_interns hinterns) hnext
  refine ⟨hb, hinterns.trans hinterns', hrest', fun final hfinal => ?_⟩
  -- The second step only searches, so what the first wrote is still read at the end.
  obtain ⟨pieces, hfields, hwritten⟩ := hpieces final (hinterns'.trans hfinal)
  obtain ⟨pieces', hfields', hwritten'⟩ := hpieces' final hfinal
  refine ⟨pieces ++ pieces', List.rel_append hfields hfields', ?_⟩
  rw [hwritten', hwritten, List.flatten_append, List.reverse_append, List.append_assoc]

/-- What is known of the value may be weakened. -/
theorem imp {P' : α → Prop} {act : Patch α} (h : Renames s fields act P) (himp : ∀ a, P a → P' a) :
    Renames s fields act P' := by
  intro st rest p a st' q hrest hp hrun
  obtain ⟨ha, hdone⟩ := h _ _ _ _ _ _ hrest hp hrun
  exact ⟨himp a ha, hdone⟩

/-- The value may be changed on the way. -/
theorem map {act : Patch α} {f : α → β} (h : Renames s fields act P)
    (hf : ∀ a, P a → Q (f a)) : Renames s fields (f <$> act) Q := by
  rw [map_eq_pure_bind, ← List.append_nil fields]
  exact h.bind fun a ha => pure (hf a ha)

/-- A step that fails may take anything. -/
theorem stop : Renames s fields (Patch.read Decoder.stop : Patch α) P := by
  intro st rest p a st' q _ _ hrun
  obtain ⟨_, _, hstop, -⟩ := read_eq_ok.1 hrun
  cases hstop

theorem bytesLeft : Renames s [] Patch.bytesLeft fun _ => True := by
  intro st rest p a st' q hrest _ hrun
  obtain ⟨⟨⟩, rfl⟩ := EStateM.pure_eq_ok.1 hrun
  exact ⟨trivial, .refl _, hrest, fun final _ => ⟨[], .nil, rfl⟩⟩

/-! #### Fields that are copied -/

/-- A form that is read and then written as it is. -/
theorem fixed {d : Decoder α} {next : α → Patch β} {taken : Bytes} {a : α} {b : β}
    (hd : d.Reads taken a)
    (hnext : next a = Patch.write taken >>= fun _ => Pure.pure b) :
    Renames s [.fixed taken] (Patch.read d >>= next) (· = b) := by
  intro st rest p c st' q hrest _ hrun
  obtain ⟨a', st₁, _, hread, hwrite⟩ := bind_eq_ok.1 hrun
  rw [form_cons, form_nil, List.append_nil] at hrest
  obtain ⟨rfl, hrest', hwritten, rfl⟩ := read_ok_of_reads hd hrest hread
  simp only [hnext, bind_eq_ok, write_eq_ok, pure_eq_ok] at hwrite
  obtain ⟨⟨⟩, _, _, ⟨⟨⟩, rfl⟩, ⟨⟩, rfl⟩ := hwrite
  refine ⟨rfl, .refl _, hrest', fun final _ => ⟨[taken], .cons .fixed .nil, ?_⟩⟩
  simp [hwritten]

theorem copy8 (b : UInt8) : Renames s [.fixed [b]] Patch.copy8 (· = b) :=
  fixed (Decoder.reads_u8 b) rfl

theorem copy16 (i : UInt16) : Renames s [.fixed (Bytes.ofUInt16 i)] Patch.copy16 (· = i) :=
  fixed (Decoder.reads_u16 i) rfl

theorem copy {taken : Bytes} {n : Nat} (hn : n = taken.length) :
    Renames s [.fixed taken] (Patch.copy n) fun _ => True := by
  subst hn
  exact (fixed (Decoder.reads_bytes taken) (bind_pure_unit).symm).imp fun _ _ => trivial

/-- A byte is copied, and the next step knows it. -/
theorem copy8_bind (b : UInt8) {next : UInt8 → Patch β} (h : Renames s fields (next b) Q) :
    Renames s (.fixed [b] :: fields) (Patch.copy8 >>= next) Q :=
  (copy8 b).bind fun _ hb => hb ▸ h

/-- Two bytes are copied, and the next step knows them. -/
theorem copy16_bind (i : UInt16) {next : UInt16 → Patch β} (h : Renames s fields (next i) Q) :
    Renames s (.fixed (Bytes.ofUInt16 i) :: fields) (Patch.copy16 >>= next) Q :=
  (copy16 i).bind fun _ hi => hi ▸ h

/-! #### Rows -/

/-- Items that a step renames one by one are renamed in a row. -/
theorem times {act : Patch Unit} {items : List (List AnnotationField)}
    (h : ∀ item ∈ items, Renames s item act fun _ => True) :
    Renames s items.flatten (Patch.times act items.length) fun _ => True := by
  induction items with
  | nil => exact pure trivial
  | cons item items ih =>
    refine (h item List.mem_cons_self).bind fun _ _ => ?_
    exact ih fun other hother => h other (List.mem_cons_of_mem _ hother)

/-- A row with its count is renamed item by item, and the count is kept. -/
theorem counted {act : Patch Unit} {items : List (List AnnotationField)}
    (hlength : items.length < 65536) (h : ∀ item ∈ items, Renames s item act fun _ => True) :
    Renames s (row items) (Patch.counted act) fun _ => True := by
  refine copy16_bind _ ?_
  rw [Pool.toNat_toUInt16_of_lt hlength]
  exact times h

end Renames

end Patch

/-! ### Annotations -/

namespace Scope

open Pool Patch

variable {s : Scope} {p q final : Pool} {type i : UInt16} {fields : List AnnotationField}

/-- Copies the new form of an index and gives the old text at it. -/
def patchIndex (s : Scope) (act : UInt16 → String → PoolM UInt16) : Patch String := do
  let i ← read Decoder.u16
  let old ← s.text i
  write16 (← act i old)
  return old

/-- A field that is an index is replaced by an index. -/
theorem renames_patchIndex {act : UInt16 → String → PoolM UInt16} {field : AnnotationField}
    (hbytes : field.bytes = Bytes.ofUInt16 i) (hinterns : ∀ old, Pool.OnlyInterns (act i old))
    (hact : ∀ {old p j q final}, s.source.utf8 i = .ok old → s.Tracks p →
      act i old p = .ok j q → q.Interns final →
      field.Renamed s.names s.source final (Bytes.ofUInt16 j)) :
    Renames s [field] (s.patchIndex act) fun old => s.source.utf8 i = .ok old := by
  intro st rest p old st' q hrest hp hrun
  obtain ⟨i', st₁, _, hread, hnext⟩ := bind_eq_ok.1 hrun
  rw [form_cons, form_nil, List.append_nil, hbytes] at hrest
  obtain ⟨rfl, hrest', hwritten, rfl⟩ := read_ok_of_reads (Decoder.reads_u16 i) hrest hread
  simp only [bind_eq_ok, lift_eq_ok, Scope.text, EStateM.ofExcept_eq_ok, write16, write_eq_ok,
    pure_eq_ok] at hnext
  obtain ⟨_, _, _, ⟨_, ⟨hold, rfl⟩, ⟨⟩⟩, j, _, _, ⟨_, hj, ⟨⟩⟩, _, _, _, ⟨⟨⟩, rfl⟩, ⟨⟩, rfl⟩ := hnext
  refine ⟨hold, hinterns _ _ _ _ hj, hrest', fun final hfinal => ⟨[Bytes.ofUInt16 j], ?_, ?_⟩⟩
  · exact .cons (hact hold hp hj hfinal) .nil
  · simp [hwritten]

/-- The step for a descriptor is one of the steps that put a new index into the place of an old
one. -/
theorem patchDesc_eq : s.patchDesc = s.patchIndex fun i _ => s.mapDescriptor i := rfl

/-- A descriptor gets its new form. -/
theorem renames_patchDesc :
    Renames s [.desc i] s.patchDesc fun old => s.source.utf8 i = .ok old := by
  rw [patchDesc_eq]
  exact renames_patchIndex rfl (fun _ => onlyInterns_mapDescriptor s i)
    fun hold hp hj hfinal => .desc hold (hp.mapDescriptor hold hj hfinal)

/-- The type of the constant is written first, but it is searched for after the name. -/
theorem renames_patchEnum :
    Renames s [.desc type, .constant type i] s.patchEnum fun _ => True := by
  -- Both indices are read before either is written, so the two fields are taken in one go.
  intro st rest p _ st' q hrest hp hrun
  have hinterns := onlyInterns_patchEnum s st p _ q hrun
  obtain ⟨type', st₁, _, hread, hnext⟩ := bind_eq_ok.1 hrun
  obtain ⟨i', st₂, _, hread', hlast⟩ := bind_eq_ok.1 hnext
  rw [form_cons, List.append_assoc] at hrest
  obtain ⟨rfl, hrest, hwritten, rfl⟩ := read_ok_of_reads (Decoder.reads_u16 type) hrest hread
  rw [form_cons, form_nil, List.append_nil] at hrest
  obtain ⟨rfl, hrest, hwritten', rfl⟩ := read_ok_of_reads (Decoder.reads_u16 i) hrest hread'
  simp only [bind_eq_ok, lift_eq_ok, Scope.text, EStateM.ofExcept_eq_ok, write16,
    write_eq_ok] at hlast
  obtain ⟨_, _, _, ⟨desc, ⟨hdesc, rfl⟩, ⟨⟩⟩, _, _, _, ⟨name, ⟨hname, rfl⟩, ⟨⟩⟩, hlast⟩ := hlast
  obtain ⟨k, _, p₁, ⟨_, hk, ⟨⟩⟩, j, _, p₂, ⟨_, hj, ⟨⟩⟩, _, _, _, ⟨⟨⟩, rfl⟩, ⟨⟩, rfl⟩ := hlast
  have hinterns₁ := onlyInterns_newIndex _ _ _ _ _ hk
  have hinterns₂ := onlyInterns_mapDescriptor s _ _ _ _ hj
  refine ⟨trivial, hinterns, hrest, fun final hfinal =>
    ⟨[Bytes.ofUInt16 j, Bytes.ofUInt16 k], .cons (.desc hdesc ?_) (.cons ?_ .nil), ?_⟩⟩
  · exact (hp.of_interns hinterns₁).mapDescriptor hdesc hj hfinal
  · exact .constant hdesc hname (hp.newIndex hk (hinterns₂.trans hfinal))
  · simp [hwritten, hwritten']

/-- An element gets its new name, given the type of its annotation. -/
theorem renames_patchElement {desc : String} (hdesc : s.source.utf8 type = .ok desc) :
    Renames s [.element type i] (s.patchIndex fun i name =>
      newIndex (s.names.mapElement desc name) i) fun name => s.source.utf8 i = .ok name :=
  renames_patchIndex rfl (fun _ => onlyInterns_newIndex _ _)
    fun hold hp hj hfinal => .element hdesc hold (hp.newIndex hj hfinal)

/-- An annotation is its type and a row of elements with their values. -/
theorem patchAnnotation_succ (depth : Nat) : s.patchAnnotation (depth + 1) = (do
    let type ← s.patchDesc
    counted do
      let _ ← s.patchIndex fun i name => newIndex (s.names.mapElement type name) i
      s.patchValue depth) := by
  unfold patchAnnotation
  simp only [patchIndex, bind_assoc, pure_bind]

/-- By induction on the depth, which both go down by one level at a time. Without depth left,
patching fails. -/
theorem renames_patchAnnotation_patchValue (depth : Nat) :
    (∀ {fields}, IsAnnotation fields → Renames s fields (s.patchAnnotation depth) fun _ => True) ∧
      ∀ {fields}, IsValue fields → Renames s fields (s.patchValue depth) fun _ => True := by
  induction depth with
  | zero =>
    unfold patchAnnotation patchValue
    exact ⟨fun _ => .stop, fun _ => .stop⟩
  | succ depth ih =>
    obtain ⟨hinner, hvalue⟩ := ih
    constructor
    · intro fields hfields
      obtain ⟨hlength, helements⟩ := hfields
      rw [patchAnnotation_succ]
      -- Elements are looked up by the old descriptor, which is what the first step gives.
      refine renames_patchDesc.bind fun desc hdesc => .counted hlength fun element helement => ?_
      obtain ⟨hv⟩ := helements element helement
      exact (renames_patchElement hdesc).bind fun _ _ => hvalue hv
    · intro fields hfields
      unfold patchValue
      cases hfields with
      | constant hc =>
        refine .copy8_bind _ ?_
        -- Nine tags stand for a constant, which is copied by its index.
        simp only [List.mem_cons, List.not_mem_nil, or_false] at hc
        rcases hc with rfl | rfl | rfl | rfl | rfl | rfl | rfl | rfl | rfl <;>
          exact (Renames.copy16 _).map fun _ _ => trivial
      | enumConstant => exact .copy8_bind _ renames_patchEnum
      | ofClass => exact .copy8_bind _ (renames_patchDesc.map fun _ _ => trivial)
      | annotation ha => exact .copy8_bind _ (hinner ha)
      | array hlength hvalues =>
        exact .copy8_bind _ (.counted hlength fun value hv => hvalue (hvalues value hv))

/-! ### Places of type annotations -/

/-- Copies a kind of place with its details. -/
def copyTarget : Patch Unit := do
  let kind := (← copy8).toNat
  if kind = 0x00 ∨ kind = 0x01 ∨ kind = 0x16 then copy 1
  else if kind = 0x10 ∨ kind = 0x11 ∨ kind = 0x12 ∨ kind = 0x17 ∨ (0x42 ≤ kind ∧ kind ≤ 0x46) then
    copy 2
  else if 0x13 ≤ kind ∧ kind ≤ 0x15 then pure ()
  else if 0x47 ≤ kind ∧ kind ≤ 0x4b then copy 3
  else if kind = 0x40 ∨ kind = 0x41 then
    let entries ← copy16
    copy (6 * entries.toNat)
  else read Decoder.stop

/-- Copies a path into a type. -/
def copyPath : Patch Unit := do
  let path ← copy8
  copy (2 * path.toNat)

/-- The place of a type annotation is a target and a path. -/
theorem patchTarget_eq : patchTarget = (do copyTarget; copyPath) := by
  unfold patchTarget copyTarget
  rw [bind_assoc]
  refine congrArg _ (funext fun kind => ?_)
  dsimp only
  repeat' split
  all_goals simp only [copyPath, pure_bind, bind_assoc]

/-- A target is copied, whatever it is a target for. -/
theorem renames_copyTarget (h : IsTarget fields) : Renames s fields copyTarget fun _ => True := by
  cases h with
  | typeParameter hkind =>
    rcases hkind with rfl | rfl <;> exact .copy8_bind _ (.copy rfl)
  | supertype => exact .copy8_bind _ (.copy rfl)
  | typeParameterBound hkind =>
    rcases hkind with rfl | rfl <;> exact .copy8_bind _ (.copy rfl)
  | memberType hkind =>
    rcases hkind with rfl | rfl | rfl <;> exact .copy8_bind _ (.pure trivial)
  | formalParameter => exact .copy8_bind _ (.copy rfl)
  | thrown => exact .copy8_bind _ (.copy rfl)
  | localVariable hkind hlength =>
    -- The only place whose length depends on a count.
    rcases hkind with rfl | rfl
    all_goals
      refine .copy8_bind _ (.copy16_bind _ (.copy ?_))
      rw [toNat_toUInt16_of_lt hlength]
      simp [List.length_flatMap, Nat.mul_comm]
  | caught => exact .copy8_bind _ (.copy rfl)
  | instruction hkind =>
    rcases hkind with rfl | rfl | rfl | rfl <;> exact .copy8_bind _ (.copy rfl)
  | typeArgument hkind =>
    rcases hkind with rfl | rfl | rfl | rfl | rfl <;> exact .copy8_bind _ (.copy rfl)

theorem toNat_toUInt8_of_lt {n : Nat} (h : n < 256) : n.toUInt8.toNat = n := by
  simp only [Nat.toUInt8_eq, UInt8.toNat_ofNat']
  omega

/-- A path is copied. -/
theorem renames_copyPath (h : IsPath fields) : Renames s fields copyPath fun _ => True := by
  obtain ⟨hlength⟩ := h
  refine .copy8_bind _ (.copy ?_)
  rw [toNat_toUInt8_of_lt hlength]
  simp [List.length_flatMap, Nat.mul_comm]

/-- A type annotation is copied up to the annotation in it, which is renamed. -/
theorem renames_patchTypeAnnotation (depth : Nat) (h : IsTypeAnnotation fields) :
    Renames s fields (do patchTarget; s.patchAnnotation depth) fun _ => True := by
  obtain ⟨htarget, hpath, hinner⟩ := h
  rw [patchTarget_eq]
  have hplace := (renames_copyTarget (s := s) htarget).bind fun _ _ => renames_copyPath hpath
  exact hplace.bind fun _ _ => (renames_patchAnnotation_patchValue depth).1 hinner

/-! ### Payloads -/

/-- A row of annotations is renamed, one after the other. -/
theorem renames_counted_patchAnnotation (depth : Nat) (h : IsRow IsAnnotation fields) :
    Renames s fields (counted (s.patchAnnotation depth)) fun _ => True := by
  obtain ⟨hlength, hitems⟩ := h
  exact .counted hlength fun item hitem =>
    (renames_patchAnnotation_patchValue depth).1 (hitems item hitem)

/-- The annotations of a class or member are renamed. -/
theorem renames_patchAnnotations (h : IsRow IsAnnotation fields) :
    Renames s fields s.patchAnnotations fun _ => True :=
  Renames.bytesLeft.bind fun depth _ => renames_counted_patchAnnotation (depth + 1) h

/-- Those of its parameters are renamed, a row for each. -/
theorem renames_patchParameterAnnotations {params : List (List AnnotationField)}
    (hlength : params.length < 256) (h : ∀ param ∈ params, IsRow IsAnnotation param) :
    Renames s (.fixed [params.length.toUInt8] :: params.flatten) s.patchParameterAnnotations
      fun _ => True := by
  refine Renames.bytesLeft.bind fun depth _ => .copy8_bind _ ?_
  rw [toNat_toUInt8_of_lt hlength]
  exact .times fun param hparam => renames_counted_patchAnnotation (depth + 1) (h param hparam)

/-- Those of its types are renamed. -/
theorem renames_patchTypeAnnotations (h : IsRow IsTypeAnnotation fields) :
    Renames s fields s.patchTypeAnnotations fun _ => True := by
  obtain ⟨hlength, hitems⟩ := h
  refine Renames.bytesLeft.bind fun depth _ => .counted hlength fun item hitem => ?_
  exact renames_patchTypeAnnotation (depth + 1) (hitems item hitem)

/-- The default value of an element is renamed. -/
theorem renames_patchDefault (h : IsValue fields) :
    Renames s fields s.patchDefault fun _ => True :=
  Renames.bytesLeft.bind fun depth _ => (renames_patchAnnotation_patchValue (depth + 1)).2 h

/-- A payload with annotations is renamed field by field, whatever is done to attributes inside
others. -/
theorem payloadRenamed_of_patchPayload {nested : Array Attribute → PoolM (Array Attribute)}
    {name : String} {rest data : Bytes} (hfields : IsPayload name fields) (hp : s.Tracks p)
    (h : s.patchPayload nested name (form fields ++ rest) p = .ok data q)
    (hfinal : q.Interns final) :
    PayloadRenamed s.names s.source final fields (form fields ++ rest) data := by
  -- The name of the attribute picks the step that is made for such fields.
  obtain ⟨act, hact, hrun⟩ : ∃ act, Renames s fields act (fun _ => True) ∧
      act.run (form fields ++ rest) p = .ok data q := by
    cases hfields with
    | annotations hname hrow =>
      rcases hname with rfl | rfl <;> exact ⟨_, renames_patchAnnotations hrow, h⟩
    | parameterAnnotations hname hlength hparams =>
      rcases hname with rfl | rfl <;>
        exact ⟨_, renames_patchParameterAnnotations hlength hparams, h⟩
    | typeAnnotations hname hrow =>
      rcases hname with rfl | rfl <;> exact ⟨_, renames_patchTypeAnnotations hrow, h⟩
    | default hvalue => exact ⟨_, renames_patchDefault hvalue, h⟩
  simp only [Patch.run, EStateM.bind_eq_ok, EStateM.pure_eq_ok] at hrun
  obtain ⟨⟨⟨⟩, st⟩, _, hrun, rfl, rfl⟩ := hrun
  obtain ⟨-, -, hrest, hpieces⟩ := hact _ rest _ _ _ _ rfl hp hrun
  obtain ⟨pieces, hforall, hwritten⟩ := hpieces final hfinal
  dsimp only at hwritten ⊢
  rw [hrest, hwritten, List.append_nil, List.reverse_reverse]
  exact .of_forall₂ hforall rest

/-! ### Lists of attributes -/

/-- The annotations of all attributes that are kept are renamed, one by one. -/
theorem Tracks.forall₂_annotationsRenamed {depth : Nat} {attributes attributes' : Array Attribute}
    (hp : s.Tracks p) (h : s.renameAttributesTo (depth + 1) attributes p = .ok attributes' q)
    (hfinal : q.Interns final) :
    List.Forall₂ (AnnotationsRenamed s.names s.source final)
      (keptAttributes s.settings s.source attributes) attributes'.toList := by
  rw [keptAttributes_eq]
  refine forall₂_arrayMapM (I := s.Tracks) (F := (·.Interns final)) Tracks.of_interns
    (fun _ hinterns hq => hinterns.trans hq) ?_ ?_ hp h hfinal
  -- The text and the payload of an attribute are patched in turn, and both only append to the pool.
  · intro a _
    refine .bind (onlyInterns_text s _) fun name => ?_
    exact .bind (onlyInterns_patchPayload s (onlyInterns_renameAttributesTo s depth) _ _)
      fun data => .pure _
  · intro a _ u a' v hu ha' hv
    simp only [EStateM.bind_eq_ok, Scope.text, EStateM.ofExcept_eq_ok, EStateM.pure_eq_ok] at ha'
    obtain ⟨name, _, ⟨hname, rfl⟩, data, _, hdata, rfl, rfl⟩ := ha'
    -- The attribute read is the one the form describes, so the payload's own lemma applies.
    refine ⟨rfl, fun hname' hfields hform => ?_⟩
    obtain rfl := Except.ok.inj (hname.symm.trans hname')
    rw [hform] at hdata ⊢
    exact payloadRenamed_of_patchPayload hfields hu hdata hv

/-- A pool in which attributes come to be renamed: the constants of the source are renamed, and
then searches are made. -/
inductive Reaches (s : Scope) (p : Pool) : Prop
  | intro {this : UInt16} {methods : Array BootstrapMethod} {start : Pool} :
    s.source.className this = .ok s.thisName →
    ({ s with params := [] } : Scope).mapPool methods s.source = .ok () start →
    start.Interns p →
    Reaches s p

/-- Behind the pool only searches are made, so the old texts are there. -/
theorem Reaches.tracks (h : s.Reaches p) : s.Tracks p := by
  obtain ⟨hname, hmap, hinterns⟩ := h
  intro hs
  have hp := (mapPool_underway (s := { s with params := [] }) hs hname hmap).of_interns hinterns
  exact ⟨hp.searchable, hp.repoints.keeps⟩

/-- A renaming keeps the form of annotations, to any depth, and puts in the place of each name in
them an index of its new form. Attributes of classes and members, of bodies and of components are
all renamed so. -/
theorem annotationsRenamed_of_renameAttributesTo {depth : Nat}
    {attributes attributes' : Array Attribute} (hp : s.Reaches p)
    (h : s.renameAttributesTo (depth + 1) attributes p = .ok attributes' q)
    (hfinal : q.Interns final) :
    List.Forall₂ (AnnotationsRenamed s.names s.source final)
      (keptAttributes s.settings s.source attributes) attributes'.toList :=
  hp.tracks.forall₂_annotationsRenamed h hfinal

/-! #### An annotation with an element -/

/-- A pool with the names in an annotation and their new forms. -/
def annotatedPool : Pool :=
  { slots := #[.unusable, .utf8 "A", .ofClass 1, .utf8 "RuntimeVisibleAnnotations", .utf8 "La;",
      .utf8 "x", .utf8 "K", .utf8 "Lb;", .utf8 "y", .utf8 "L"] }

/-- The annotation `a` becomes `b`, its element `x` becomes `y`, and constants become `L`. No class
has a new name: what becomes of the descriptor of `a` is an answer of its own. -/
def annotated : Scope where
  names :=
    { mapField := fun _ => some "L"
      mapElement := fun _ name => if name = "x" then some "y" else none
      mapDescriptor := fun desc => if desc = "La;" then "Lb;" else desc }
  settings := {}
  source := annotatedPool
  thisName := "A"

/-- The annotation `@a(x = a.K)`. -/
def annotatedFields : List AnnotationField :=
  row [.desc 4 :: row [[.element 4 5, tag 'e', .desc 4, .constant 4 6]]]

/-- The form of one annotation is a payload. -/
theorem isPayload_annotatedFields :
    IsPayload "RuntimeVisibleAnnotations" annotatedFields := by
  refine .annotations (.inl rfl) (.intro (by decide) fun item hitem => ?_)
  obtain rfl := List.mem_singleton.1 hitem
  refine .intro (by decide) fun element helement => ?_
  obtain rfl := List.mem_singleton.1 helement
  exact .intro .enumConstant

/-- All new names are in the pool. -/
private theorem found_annotated {text : String} {i : UInt16}
    (h : (text, i) ∈ [("Lb;", 7), ("y", 8), ("L", 9)]) :
    (indexOf annotatedPool.slots)[SearchKey.utf8 text]? = some i := by
  simp only [List.mem_cons, Prod.mk.injEq, List.not_mem_nil, or_false] at h
  rcases h with ⟨rfl, rfl⟩ | ⟨rfl, rfl⟩ | ⟨rfl, rfl⟩ <;>
    simp [indexOf, annotatedPool, List.zipIdx, Constant.key?, Std.HashMap.getElem_insertIfNew]

/-- A search for a new name finds it in its slot. -/
private theorem internText_annotated {text : String} {i : UInt16}
    (h : (text, i) ∈ [("Lb;", 7), ("y", 8), ("L", 9)]) :
    internText text annotatedPool.withIndex = .ok i annotatedPool.withIndex :=
  intern_of_found (p := annotatedPool.withIndex) (found_annotated h)

/-- The descriptor of `a` is replaced by that of `b`. -/
private theorem patchDesc_annotated {rest written : Bytes} {offset : Nat} :
    annotated.patchDesc { input := { rest := 0 :: 4 :: rest, offset }, written }
      annotatedPool.withIndex = .ok ("La;", { input := { rest, offset := offset + 2 }
                                              written := 7 :: 0 :: written })
        annotatedPool.withIndex := by
  refine bind_eq_ok.2 ⟨4, _, _, rfl, bind_eq_ok.2 ⟨"La;", _, _, rfl, ?_⟩⟩
  exact bind_eq_ok.2 ⟨7, _, _, lift_eq_ok.2 ⟨7, internText_annotated (by decide), rfl⟩, rfl⟩

/-- The constant `a.K` is replaced by `b.L`. -/
private theorem patchEnum_annotated {rest written : Bytes} {offset : Nat} :
    annotated.patchEnum { input := { rest := 0 :: 4 :: 0 :: 6 :: rest, offset }, written }
      annotatedPool.withIndex = .ok ((), { input := { rest, offset := offset + 2 + 2 }
                                           written := 9 :: 0 :: 7 :: 0 :: written })
        annotatedPool.withIndex := by
  refine bind_eq_ok.2 ⟨4, _, _, rfl, bind_eq_ok.2 ⟨6, _, _, rfl, ?_⟩⟩
  refine bind_eq_ok.2 ⟨"La;", _, _, rfl, bind_eq_ok.2 ⟨"K", _, _, rfl, ?_⟩⟩
  refine bind_eq_ok.2 ⟨9, _, _, lift_eq_ok.2 ⟨9, internText_annotated (by decide), rfl⟩, ?_⟩
  exact bind_eq_ok.2 ⟨7, _, _, lift_eq_ok.2 ⟨7, internText_annotated (by decide), rfl⟩, rfl⟩

/-- The whole annotation is renamed. -/
private theorem patchAnnotations_annotated :
    annotated.patchAnnotations { input := { rest := form annotatedFields } }
      annotatedPool.withIndex = .ok ((), { input := { rest := [], offset := 13 }
                                           written := [9, 0, 7, 0, 0x65, 8, 0, 1, 0, 7, 0, 1, 0] })
        annotatedPool.withIndex := by
  refine bind_eq_ok.2 ⟨13, _, _, rfl, bind_eq_ok.2 ⟨1, _, _, rfl, bind_eq_ok.2 ⟨(), _, _, ?_, rfl⟩⟩⟩
  refine bind_eq_ok.2 ⟨_, _, _, patchDesc_annotated, bind_eq_ok.2 ⟨1, _, _, rfl, ?_⟩⟩
  refine bind_eq_ok.2 ⟨(), _, _, bind_eq_ok.2 ⟨5, _, _, rfl, bind_eq_ok.2 ⟨"x", _, _, rfl, ?_⟩⟩, rfl⟩
  refine bind_eq_ok.2 ⟨8, _, _, lift_eq_ok.2 ⟨8, internText_annotated (by decide), rfl⟩, ?_⟩
  exact bind_eq_ok.2 ⟨(), _, _, rfl, bind_eq_ok.2 ⟨0x65, _, _, rfl, patchEnum_annotated⟩⟩

/-- Every name is found under its index. -/
theorem searchable_annotatedPool : annotatedPool.Searchable where
  size_le := by decide
  sound := by
    intro index hindex
    cases hindex

/-- Going through the pool leaves it as it is. -/
theorem reaches_annotated : annotated.Reaches annotatedPool.withIndex := by
  have hname : annotated.source.className 2 = .ok annotated.thisName := rfl
  have hmap : ({ annotated with params := [] } : Scope).mapPool #[] annotatedPool =
      .ok () annotatedPool := rfl
  refine .intro hname hmap ?_
  exact OnlyInterns.internText "Lb;" _ 7 _ (intern_of_found (found_annotated (by decide)))

/-- The attribute with the annotation is renamed. -/
theorem renameAttributesTo_annotated :
    annotated.renameAttributesTo 1 #[⟨3, form annotatedFields⟩] annotatedPool.withIndex =
      .ok #[⟨3, [0, 1, 0, 7, 0, 1, 0, 8, 0x65, 0, 7, 0, 9]⟩] annotatedPool.withIndex := by
  have hframes : ¬ annotated.settings.removeFrames = true := by decide
  simp only [renameAttributesTo, if_neg hframes, List.mapM_toArray, List.mapM_cons, List.mapM_nil,
    EStateM.map_eq_ok, EStateM.bind_eq_ok]
  refine ⟨_, ⟨_, _, ⟨"RuntimeVisibleAnnotations", _, rfl, _, _, ?_, rfl⟩, _, _, rfl, rfl⟩, rfl⟩
  exact EStateM.bind_eq_ok.2 ⟨_, _, patchAnnotations_annotated, rfl⟩

/-- The type, the element and the constant of the annotation are replaced; the tag and the counts
stay. -/
theorem annotationsRenamed_annotated :
    annotatedPool.Searchable ∧ annotated.Reaches annotatedPool.withIndex ∧
      annotated.renameAttributesTo 1 #[⟨3, form annotatedFields⟩] annotatedPool.withIndex =
        .ok #[⟨3, [0, 1, 0, 7, 0, 1, 0, 8, 0x65, 0, 7, 0, 9]⟩] annotatedPool.withIndex ∧
      IsPayload "RuntimeVisibleAnnotations" annotatedFields ∧
      PayloadRenamed annotated.names annotatedPool annotatedPool.withIndex annotatedFields
        (form annotatedFields) [0, 1, 0, 7, 0, 1, 0, 8, 0x65, 0, 7, 0, 9] := by
  refine ⟨searchable_annotatedPool, reaches_annotated, renameAttributesTo_annotated,
    isPayload_annotatedFields, ?_⟩
  have h := annotationsRenamed_of_renameAttributesTo reaches_annotated renameAttributesTo_annotated
    (.refl _)
  obtain ⟨hrenamed, -⟩ := List.forall₂_cons.1 h
  exact hrenamed.payload rfl isPayload_annotatedFields (List.append_nil _).symm

/-! ### Members -/

/-- The annotations of a member are renamed. -/
theorem Tracks.renameMember {kind : MemberKind} {m m' : MemberInfo} (hp : s.Tracks p)
    (h : s.renameMember kind m p = .ok m' q) (hfinal : q.Interns final) :
    m.AnnotationsRenamed s.names s.settings s.source final m' := by
  simp only [Scope.renameMember, EStateM.bind_eq_ok, Scope.text, EStateM.ofExcept_eq_ok,
    EStateM.pure_eq_ok] at h
  obtain ⟨name, _, ⟨-, rfl⟩, desc, _, ⟨-, rfl⟩, i, p₁, hi, j, p₂, hj, attributes, _,
    hattributes, rfl, rfl⟩ := h
  -- The parameters of a method play no part in its annotations.
  obtain ⟨params, hattributes⟩ : ∃ params,
      ({ s with params } : Scope).renameAttributes m.attributes p₂ = .ok attributes _ := by
    split at hattributes
    · exact ⟨_, hattributes⟩
    · exact ⟨s.params, hattributes⟩
  have hinterns := (onlyInterns_newIndex _ _ _ _ _ hi).trans
    (onlyInterns_mapDescriptor s _ _ _ _ hj)
  have hp₂ : ({ s with params } : Scope).Tracks p₂ := hp.of_interns hinterns
  exact hp₂.forall₂_annotationsRenamed hattributes hfinal

/-- The annotations of all members are renamed, one by one. -/
theorem Tracks.forall₂_renameMember {kind : MemberKind} {ms ms' : Array MemberInfo}
    (hp : s.Tracks p) (h : ms.mapM (s.renameMember kind) p = .ok ms' q)
    (hfinal : q.Interns final) :
    List.Forall₂ (MemberInfo.AnnotationsRenamed s.names s.settings s.source final)
      ms.toList ms'.toList :=
  forall₂_arrayMapM (I := s.Tracks) (F := (·.Interns final)) Tracks.of_interns
    (fun _ hinterns hq => hinterns.trans hq) (fun m _ => onlyInterns_renameMember s kind m)
    (fun _ _ _ _ _ hu hm hv => hu.renameMember hm hv) hp h hfinal

end Scope

/-! ### Classes -/

/-- Naming the source file replaces no annotation. -/
theorem AnnotationsRenamed.repaid {names : Renaming} {p q : Pool} {a b b' : Attribute}
    (h : AnnotationsRenamed names p q a b) (h' : Repaid p ["SourceFile"] b b') :
    AnnotationsRenamed names p q a b' := by
  cases h' with
  | same => exact h
  | named hname hmem =>
    obtain rfl := List.mem_singleton.1 hmem
    refine ⟨h.nameIndex_eq, fun hname' hfields _ => ?_⟩
    rw [h.nameIndex_eq, hname'] at hname
    exact absurd (Except.ok.inj hname) hfields.ne_sourceFile

namespace ClassFile

variable {names : Renaming} {settings : RelabelSettings} {c c' : ClassFile}

/-- A relabeling renames the annotations of a class and of its members. -/
theorem annotationsRenamed_of_relabel (h : c.relabel names settings = .ok c') :
    List.Forall₂ (MemberInfo.AnnotationsRenamed names settings c.pool c'.pool)
        c.fields.toList c'.fields.toList ∧
      List.Forall₂ (MemberInfo.AnnotationsRenamed names settings c.pool c'.pool)
        c.methods.toList c'.methods.toList ∧
      List.Forall₂ (AnnotationsRenamed names c.pool c'.pool)
        (keptAttributes settings c.pool c.attributes) c'.attributes.toList := by
  obtain ⟨thisName, methods, d, p, p₁, p₂, p₃, hname, -, hmap, hsteps, hc'⟩ := relabel_ok h
  have hreaches : (c.scope names settings thisName).Reaches p := .intro hname hmap (.refl p)
  have hp := hreaches.tracks
  obtain ⟨h₁, h₂, h₃, h₄⟩ := hsteps.interns
  obtain ⟨attributes, hattributes, hsource⟩ := hsteps.attributes
  rw [hc']
  refine ⟨?_, ?_, ?_⟩
  · exact hp.forall₂_renameMember hsteps.fields ((h₂.trans h₃).trans h₄)
  · exact (hp.of_interns h₁).forall₂_renameMember hsteps.methods (h₃.trans h₄)
  · have hrenamed := (hp.of_interns (h₁.trans h₂)).forall₂_annotationsRenamed hattributes h₄
    -- The name of the source file comes last, if at all.
    split at hsource
    · exact forall₂_comp (fun _ _ _ hab hbc => hab.repaid hbc) hrenamed
        (Scope.nameSourceFile_ok hsource)
    · obtain ⟨hsame, -⟩ := EStateM.pure_eq_ok.1 hsource
      rw [← hsame]
      exact hrenamed

end ClassFile

end Relabel
