import Relabel.Renaming.Class
import Relabel.Proofs.Renaming.Constants

/-!
# Patching a payload only searches the pool

Whatever is patched in an attribute, the pool sees nothing but searches for texts and for names with
their descriptors. The lemmas follow the patching functions one by one; for the payloads that hold
attributes themselves, they take what is known of the attributes inside as a hypothesis.

## Main results

- `Scope.onlyInterns_patchPayload`: patching one attribute.
- `Scope.onlyInterns_renameAttributes`: patching a list of attributes, to any depth.
- `Scope.onlyInterns_renameMember`: renaming a member with its attributes.
-/

namespace Relabel

/-! ### Steps of patching -/

namespace Patch

variable {α β : Type}

/-- A patch and what follows it succeed one after the other. -/
theorem bind_eq_ok {x : Patch α} {f : α → Patch β} {st : PatchState} {p q : Pool}
    {r : β × PatchState} :
    (x >>= f) st p = .ok r q ↔ ∃ a st' u, x st p = .ok (a, st') u ∧ f a st' u = .ok r q := by
  show ((x st) >>= fun (a, st') => f a st') p = .ok r q ↔ _
  rw [EStateM.bind_eq_ok]
  simp only [Prod.exists]

@[simp]
theorem pure_eq_ok {a : α} {st : PatchState} {p q : Pool} {r : α × PatchState} :
    (pure a : Patch α) st p = .ok r q ↔ (a, st) = r ∧ p = q :=
  EStateM.pure_eq_ok

/-- A step on the pool leaves the input and what is written alone. -/
@[simp]
theorem lift_eq_ok {x : PoolM α} {st : PatchState} {p q : Pool} {r : α × PatchState} :
    (liftM x : Patch α) st p = .ok r q ↔ ∃ a, x p = .ok a q ∧ (a, st) = r := by
  show (x >>= fun a => pure (a, st)) p = .ok r q ↔ _
  rw [EStateM.bind_eq_ok]
  constructor
  · rintro ⟨a, u, hx, hr⟩
    obtain ⟨rfl, rfl⟩ := EStateM.pure_eq_ok.1 hr
    exact ⟨a, hx, rfl⟩
  · rintro ⟨a, hx, rfl⟩
    exact ⟨a, q, hx, rfl⟩

/-- A check gives its value, and changes nothing. -/
theorem ofExcept_eq_ok {x : Except FormatError α} {st : PatchState} {p q : Pool}
    {r : α × PatchState} :
    (MonadExcept.ofExcept x : Patch α) st p = .ok r q ↔ ∃ a, x = .ok a ∧ (a, st) = r ∧ p = q := by
  cases x with
  | ok a =>
    show EStateM.Result.ok (a, st) p = .ok r q ↔ _
    simp
  | error e =>
    show EStateM.Result.error e p = .ok r q ↔ _
    simp

/-- Reading takes from the input, and changes neither what is written nor the pool. -/
theorem read_eq_ok {d : Decoder α} {st : PatchState} {p q : Pool} {r : α × PatchState} :
    read d st p = .ok r q ↔
      ∃ a input, d st.input = .ok a input ∧ r = (a, { st with input }) ∧ q = p := by
  unfold read
  cases d st.input with
  | ok a input =>
    simp only [EStateM.Result.ok.injEq]
    constructor
    · rintro ⟨rfl, rfl⟩
      exact ⟨a, input, ⟨rfl, rfl⟩, rfl, rfl⟩
    · rintro ⟨_, _, ⟨rfl, rfl⟩, rfl, rfl⟩
      exact ⟨rfl, rfl⟩
  | error e input => simp

/-- Writing puts bytes behind those that are written, and leaves the pool alone. -/
theorem write_eq_ok {bytes : Bytes} {st : PatchState} {p q : Pool} {r : Unit × PatchState} :
    write bytes st p = .ok r q ↔
      r = ((), { st with written := bytes.reverse ++ st.written }) ∧ q = p := by
  show EStateM.Result.ok ((), { st with written := bytes.reverse ++ st.written }) p = .ok r q ↔ _
  simp [eq_comm]

/-- A counted row at the front of a payload: the count is copied, and the row follows. -/
theorem runFront_counted_eq_ok {act : Patch Unit} {data written : Bytes} {p q : Pool}
    (h : (counted act).runFront data p = .ok written q) :
    ∃ n input st, Decoder.u16 { rest := data } = .ok n input ∧
      times act n.toNat { input, written := (Bytes.ofUInt16 n).reverse } p = .ok ((), st) q ∧
      written = st.written.reverse := by
  simp only [runFront, EStateM.bind_eq_ok, EStateM.pure_eq_ok] at h
  obtain ⟨⟨⟨⟩, st⟩, _, hrun, rfl, rfl⟩ := h
  simp only [StateT.run, counted, copy16, bind_eq_ok, read_eq_ok, write16, write_eq_ok,
    pure_eq_ok] at hrun
  obtain ⟨n, _, _, ⟨_, _, _, ⟨_, input, hn, ⟨⟩, rfl⟩, _, _, _, ⟨⟨⟩, rfl⟩, ⟨⟩, rfl⟩, htimes⟩ := hrun
  exact ⟨n, input, st, hn, by simpa using htimes, rfl⟩

/-- A step of patching that does nothing to the pool but search it. -/
def OnlyInterns (act : Patch α) : Prop :=
  ∀ st, Pool.OnlyInterns (act st)

namespace OnlyInterns

theorem pure (a : α) : OnlyInterns (Pure.pure a : Patch α) :=
  fun st => Pool.OnlyInterns.pure (a, st)

/-- What adds entries only, one after the other, adds entries only. -/
theorem bind {act : Patch α} {next : α → Patch β} (h : OnlyInterns act)
    (h' : ∀ a, OnlyInterns (next a)) : OnlyInterns (act >>= next) :=
  fun st => Pool.OnlyInterns.bind (h st) fun (a, st') => h' a st'

/-- A function of the result interns nothing. -/
theorem map {act : Patch α} (f : α → β) (h : OnlyInterns act) : OnlyInterns (f <$> act) :=
  fun st => Pool.OnlyInterns.bind (h st) fun (a, st') => Pool.OnlyInterns.pure (f a, st')

/-- A step on the pool does as a patch what it does to the pool. -/
theorem lift {act : PoolM α} (h : Pool.OnlyInterns act) : OnlyInterns (liftM act : Patch α) :=
  fun st => Pool.OnlyInterns.bind h fun a => Pool.OnlyInterns.pure (a, st)

/-- A check adds nothing to the pool. -/
theorem ofExcept (x : Except FormatError α) :
    OnlyInterns (MonadExcept.ofExcept x : Patch α) := by
  intro st p r q h
  obtain ⟨_, _, _, rfl⟩ := ofExcept_eq_ok.1 h
  exact Pool.Interns.refl p

/-- Reading adds nothing to the pool. -/
theorem read (d : Decoder α) : OnlyInterns (Patch.read d) := by
  intro st p r q h
  obtain ⟨_, _, _, _, rfl⟩ := read_eq_ok.1 h
  exact Pool.Interns.refl q

/-- Writing adds nothing to the pool. -/
theorem write (bytes : Bytes) : OnlyInterns (Patch.write bytes) := by
  intro st p r q h
  obtain ⟨_, rfl⟩ := write_eq_ok.1 h
  exact Pool.Interns.refl q

theorem write16 (i : UInt16) : OnlyInterns (Patch.write16 i) :=
  write _

theorem copy8 : OnlyInterns Patch.copy8 :=
  bind (read _) fun _ => bind (write _) fun _ => pure _

theorem copy16 : OnlyInterns Patch.copy16 :=
  bind (read _) fun _ => bind (write16 _) fun _ => pure _

theorem copy (n : Nat) : OnlyInterns (Patch.copy n) :=
  bind (read _) fun _ => write _

theorem bytesLeft : OnlyInterns Patch.bytesLeft :=
  fun st => Pool.OnlyInterns.pure (st.input.rest.length, st)

/-- A patch that is done a number of times adds entries only if it does so once. -/
theorem times {act : Patch Unit} (h : OnlyInterns act) (n : Nat) :
    OnlyInterns (Patch.times act n) := by
  induction n with
  | zero => exact pure ()
  | succ n ih => exact bind h fun _ => ih

theorem counted {act : Patch Unit} (h : OnlyInterns act) : OnlyInterns (Patch.counted act) :=
  bind copy16 fun n => times h n.toNat

/-- A patch of the front of a payload does to the pool what it does on its way. -/
theorem runFront {act : Patch Unit} (h : OnlyInterns act) (data : Bytes) :
    Pool.OnlyInterns (act.runFront data) :=
  Pool.OnlyInterns.bind (h _) fun _ => Pool.OnlyInterns.pure _

/-- A patch of a whole payload does to the pool what it does on its way. -/
theorem run {act : Patch Unit} (h : OnlyInterns act) (data : Bytes) :
    Pool.OnlyInterns (act.run data) :=
  Pool.OnlyInterns.bind (h _) fun _ => Pool.OnlyInterns.pure _

end OnlyInterns

end Patch

namespace Scope

open Pool

theorem onlyInterns_text (s : Scope) (i : UInt16) : OnlyInterns (s.text i) :=
  .ofExcept _

theorem onlyInterns_mapDescriptor (s : Scope) (i : UInt16) : OnlyInterns (s.mapDescriptor i) :=
  onlyInterns_mapText s _ i

theorem onlyInterns_mapSignature (s : Scope) (i : UInt16) : OnlyInterns (s.mapSignature i) :=
  onlyInterns_mapText s _ i

/-! ### Annotations -/

theorem onlyInterns_patchDesc (s : Scope) : Patch.OnlyInterns s.patchDesc := by
  refine .bind (.read _) fun i => .bind (.lift (onlyInterns_text s i)) fun old => ?_
  exact .bind (.lift (onlyInterns_mapDescriptor s i)) fun j => .bind (.write16 _) fun _ => .pure _

/-- An enum constant gets new texts for its type and its name at most. -/
theorem onlyInterns_patchEnum (s : Scope) : Patch.OnlyInterns s.patchEnum := by
  refine .bind (.read _) fun i => .bind (.read _) fun j => ?_
  refine .bind (.lift (onlyInterns_text s i)) fun type => ?_
  refine .bind (.lift (onlyInterns_text s j)) fun name => ?_
  refine .bind (.lift (onlyInterns_newIndex _ j)) fun k => ?_
  refine .bind (.lift (onlyInterns_mapDescriptor s i)) fun _ => ?_
  exact .bind (.write16 _) fun _ => .write16 k

/-- Annotations nest in values and values in annotations, so both go down one level at a time. -/
theorem onlyInterns_patchAnnotation_patchValue (s : Scope) (depth : Nat) :
    Patch.OnlyInterns (s.patchAnnotation depth) ∧ Patch.OnlyInterns (s.patchValue depth) := by
  induction depth with
  | zero =>
    unfold patchAnnotation patchValue
    exact ⟨.read _, .read _⟩
  | succ depth ih =>
    obtain ⟨hinner, hvalue⟩ := ih
    constructor
    · unfold patchAnnotation
      refine .bind (onlyInterns_patchDesc s) fun type => .counted ?_
      refine .bind (.read _) fun i => .bind (.lift (onlyInterns_text s i)) fun name => ?_
      exact .bind (.lift (onlyInterns_newIndex _ i)) fun j => .bind (.write16 _) fun _ => hvalue
    · unfold patchValue
      refine .bind .copy8 fun tag => ?_
      split
      -- Nine tags stand for a constant, which is copied by its index.
      iterate 9 exact .map _ .copy16
      · exact onlyInterns_patchEnum s
      · exact .map _ (onlyInterns_patchDesc s)
      · exact hinner
      · exact .counted hvalue
      · exact .read _

/-- The place of a type annotation is copied. -/
theorem onlyInterns_patchTarget : Patch.OnlyInterns patchTarget := by
  refine .bind .copy8 fun kind => ?_
  -- Every target ends with a path of types, whatever comes before it.
  have hpath : Patch.OnlyInterns (do
      let path ← Patch.copy8
      Patch.copy (2 * path.toNat)) :=
    .bind .copy8 fun path => .copy _
  dsimp only
  repeat' split
  · exact .bind (.copy _) fun _ => hpath
  · exact .bind (.copy _) fun _ => hpath
  · exact hpath
  · exact .bind (.copy _) fun _ => hpath
  · exact .bind .copy16 fun _ => .bind (.copy _) fun _ => hpath
  · exact .bind (.read _) fun _ => hpath

theorem onlyInterns_patchAnnotations (s : Scope) : Patch.OnlyInterns s.patchAnnotations :=
  .bind .bytesLeft fun depth =>
    .counted (onlyInterns_patchAnnotation_patchValue s (depth + 1)).1

theorem onlyInterns_patchParameterAnnotations (s : Scope) :
    Patch.OnlyInterns s.patchParameterAnnotations :=
  .bind .bytesLeft fun depth => .bind .copy8 fun params =>
    .times (.counted (onlyInterns_patchAnnotation_patchValue s (depth + 1)).1) params.toNat

/-- So do annotations of types. -/
theorem onlyInterns_patchTypeAnnotations (s : Scope) :
    Patch.OnlyInterns s.patchTypeAnnotations :=
  .bind .bytesLeft fun depth => .counted <|
    .bind onlyInterns_patchTarget fun _ =>
      (onlyInterns_patchAnnotation_patchValue s (depth + 1)).1

theorem onlyInterns_patchDefault (s : Scope) : Patch.OnlyInterns s.patchDefault :=
  .bind .bytesLeft fun depth => (onlyInterns_patchAnnotation_patchValue s (depth + 1)).2

/-! ### Tables of local variables -/

/-- The slots of a table are read off the pool. -/
theorem onlyInterns_localSlots (table : Array LocalVariable) : OnlyInterns (localSlots table) := by
  intro p slots q h
  simp only [localSlots, EStateM.bind_eq_ok, EStateM.ofExcept_eq_ok] at h
  obtain ⟨_, _, hget, -, rfl⟩ := h
  obtain ⟨rfl, rfl⟩ := EStateM.Result.ok.inj hget
  exact Interns.refl _

/-- Entries get the texts of their names one after the other. -/
theorem onlyInterns_nameEntries (done : Array LocalVariable) (given : GivenNames)
    (entries : List (LocalVariable × Option String)) :
    OnlyInterns (nameEntries done given entries) := by
  fun_induction nameEntries done given entries with
  | case1 => exact .pure _
  | case2 done given v rest ih => exact ih
  | case3 done given v name rest ih => exact .bind (.internText _) fun i => ih i

/-- Parameters that are added get texts for their names and types. -/
theorem onlyInterns_addParams (length : UInt16) (table : Array LocalVariable)
    (params : List ((UInt16 × String) × Option String)) :
    OnlyInterns (addParams length table params) := by
  fun_induction addParams length table params with
  | case1 => exact .pure _
  | case2 table param rest ih => exact ih
  | case3 table slot desc name rest ih =>
    exact .bind (.internText _) fun i => .bind (.internText _) fun j => ih i j

/-- A table gets texts for the new names and for the parameters that it lacks. -/
theorem onlyInterns_renameTable (s : Scope) (naming : LocalPolicy) (length : Nat)
    (table : Array LocalVariable) : OnlyInterns (s.renameTable naming length table) := by
  refine .bind (onlyInterns_localSlots table) fun slots => ?_
  dsimp only
  split
  · exact .pure none
  · refine .bind (onlyInterns_nameEntries _ _ _) fun (table, given) => ?_
    dsimp only
    split
    · exact .bind (.throw _) fun _ => .bind (onlyInterns_addParams _ _ _) fun _ => .pure _
    · exact .bind (onlyInterns_addParams _ _ _) fun _ => .pure _

/-- A new table gets at most a text for the name of its attribute. -/
theorem onlyInterns_putTable (attributes : Array Attribute) (place : Option Nat) (data : Bytes) :
    OnlyInterns (putTable attributes place data) := by
  unfold putTable
  split
  · exact .pure _
  · exact .bind (.internText _) fun i => .pure _

/-- The tables of a body get texts for names, types and attributes only. -/
theorem onlyInterns_replaceLocals (s : Scope) (naming : LocalPolicy) (code : Code) :
    OnlyInterns (s.replaceLocals naming code) := by
  refine .bind (.ofExcept _) fun table => .bind (onlyInterns_renameTable _ _ _ _) fun r => ?_
  split
  · exact .pure code
  · refine .bind (.ofExcept _) fun data => .bind (onlyInterns_putTable _ _ _) fun attributes => ?_
    exact .bind (.ofExcept _) fun attributes => .pure _

/-! ### Attributes -/

/-- The new form of a signature is a new text at most, or there is no signature to read. -/
theorem onlyInterns_patchSignature (s : Scope) (data : Bytes) :
    OnlyInterns (s.patchSignature data) := by
  unfold patchSignature
  split
  · exact .bind (onlyInterns_mapSignature s _) fun i => .pure _
  · exact .throw _

theorem onlyInterns_patchTable {mapType : UInt16 → PoolM UInt16}
    (h : ∀ i, OnlyInterns (mapType i)) (data : Bytes) : OnlyInterns (patchTable mapType data) := by
  refine .bind (.ofExcept _) fun table => .bind (.arrayMapM fun v => ?_) fun table => .ofExcept _
  exact .bind (h _) fun i => .pure _

/-- The simple name of an inner class gets a new text at most. -/
theorem onlyInterns_innerNameIndex (s : Scope) (inner : String) (outerIndex nameIndex : UInt16) :
    OnlyInterns (s.innerNameIndex inner outerIndex nameIndex) := by
  unfold innerNameIndex
  split
  · exact .pure _
  · split
    · exact .pure _
    · next newInner _ =>
      -- The outer class only matters for the text that is searched for.
      have hnamed (newOuter : Option String) : OnlyInterns (do
          if innerName newInner newOuter = (← s.text nameIndex) then return nameIndex
          Pool.internText (innerName newInner newOuter)) := by
        refine .bind (onlyInterns_text s _) fun old => ?_
        split
        · exact .pure _
        · exact .internText _
      dsimp only
      split
      · exact .bind (.pure _) hnamed
      · exact .bind (.ofExcept _) fun outer => .bind (.pure _) hnamed

/-- A row of inner classes gets a new text for the simple name at most. -/
theorem onlyInterns_patchInnerClass (s : Scope) : Patch.OnlyInterns s.patchInnerClass := by
  refine .bind .copy16 fun inner => .bind .copy16 fun outer => .bind (.read _) fun name => ?_
  refine .bind (.read _) fun access => .bind (.lift (.ofExcept _)) fun innerName => ?_
  refine .bind (.lift (onlyInterns_innerNameIndex s _ _ _)) fun i => ?_
  exact .bind (.write16 _) fun _ => .write16 _

/-- The method around a class gets a new name and type at most. -/
theorem onlyInterns_patchEnclosingMethod (s : Scope) :
    Patch.OnlyInterns s.patchEnclosingMethod := by
  refine .bind .copy16 fun owner => .bind (.read _) fun method => ?_
  split
  · exact .write16 _
  · refine .bind (.lift (.ofExcept _)) fun ownerName => .bind (.lift (.ofExcept _)) fun names => ?_
    exact .bind (.lift (onlyInterns_changedNames s _ _ _)) fun r => .write16 _

section Nested

variable {nested : Array Attribute → PoolM (Array Attribute)}

/-- A component of a record adds entries only, if its attributes do. -/
theorem onlyInterns_patchComponent (s : Scope)
    (hnested : ∀ attributes, OnlyInterns (nested attributes)) :
    Patch.OnlyInterns (s.patchComponent nested) := by
  refine .bind (.read _) fun name => .bind (.read _) fun desc => ?_
  refine .bind (.lift (onlyInterns_text s _)) fun oldName => ?_
  refine .bind (.lift (onlyInterns_text s _)) fun oldDesc => ?_
  refine .bind (.lift (onlyInterns_newIndex _ _)) fun i => .bind (.write16 _) fun _ => ?_
  refine .bind (.lift (onlyInterns_mapDescriptor s _)) fun j => .bind (.write16 _) fun _ => ?_
  refine .bind (.read _) fun attributes => .bind (.lift (hnested _)) fun attributes => ?_
  exact .bind (.ofExcept _) fun bytes => .write bytes

/-- A body adds entries only, if its attributes do. -/
theorem onlyInterns_patchCode (s : Scope) (hnested : ∀ attributes, OnlyInterns (nested attributes))
    (data : Bytes) : OnlyInterns (s.patchCode nested data) := by
  refine .bind (.ofExcept _) fun code => .bind (hnested _) fun attributes => ?_
  dsimp only
  split
  · exact .bind (onlyInterns_replaceLocals s _ _) fun code => .ofExcept _
  · exact .bind (.pure _) fun code => .ofExcept _

/-- Patching an attribute only searches the pool, provided that patching those inside it does. -/
theorem onlyInterns_patchPayload (s : Scope)
    (hnested : ∀ attributes, OnlyInterns (nested attributes)) (name : String) (data : Bytes) :
    OnlyInterns (s.patchPayload nested name data) := by
  unfold patchPayload
  -- The kinds of attributes one after the other; the last case leaves the payload alone.
  split
  · exact onlyInterns_patchSignature s data
  · exact onlyInterns_patchCode s hnested data
  · exact onlyInterns_patchTable (onlyInterns_mapDescriptor s) data
  · exact onlyInterns_patchTable (onlyInterns_mapSignature s) data
  · exact (Patch.OnlyInterns.counted (onlyInterns_patchInnerClass s)).run data
  · exact (onlyInterns_patchEnclosingMethod s).run data
  · exact (Patch.OnlyInterns.counted (onlyInterns_patchComponent s hnested)).runFront data
  · exact (onlyInterns_patchAnnotations s).run data
  · exact (onlyInterns_patchAnnotations s).run data
  · exact (onlyInterns_patchParameterAnnotations s).run data
  · exact (onlyInterns_patchParameterAnnotations s).run data
  · exact (onlyInterns_patchTypeAnnotations s).run data
  · exact (onlyInterns_patchTypeAnnotations s).run data
  · exact (onlyInterns_patchDefault s).run data
  · exact .pure data

end Nested

/-- By induction on the depth, attributes inside attributes add entries only. -/
theorem onlyInterns_renameAttributesTo (s : Scope) (depth : Nat) (attributes : Array Attribute) :
    OnlyInterns (s.renameAttributesTo depth attributes) := by
  induction depth generalizing attributes with
  | zero => exact .pure attributes
  | succ depth ih =>
    -- Payloads inside this one are a level deeper.
    refine .arrayMapM fun a => .bind (onlyInterns_text s _) fun name => ?_
    exact .bind (onlyInterns_patchPayload s ih _ _) fun data => .pure _

theorem onlyInterns_renameAttributes (s : Scope) (attributes : Array Attribute) :
    OnlyInterns (s.renameAttributes attributes) :=
  onlyInterns_renameAttributesTo s _ attributes

/-! ### Members and classes -/

/-- A member adds entries for its new name and descriptor, and for its attributes. -/
theorem onlyInterns_renameMember (s : Scope) (kind : MemberKind) (m : MemberInfo) :
    OnlyInterns (s.renameMember kind m) := by
  refine .bind (onlyInterns_text s _) fun name => .bind (onlyInterns_text s _) fun desc => ?_
  refine .bind (onlyInterns_newIndex _ _) fun i => .bind (onlyInterns_mapDescriptor s _) fun j => ?_
  exact .bind (onlyInterns_renameAttributes _ _) fun attributes => .pure _

/-- The name of the source file gets a new text at most. -/
theorem onlyInterns_nameSourceFile (s : Scope) (attributes : Array Attribute) :
    OnlyInterns (s.nameSourceFile attributes) := by
  unfold nameSourceFile
  split
  · exact .pure _
  · split
    · refine .bind (onlyInterns_text s _) fun old => .bind (.internText _) fun new => .pure _
    · exact .throw _

end Scope

end Relabel
