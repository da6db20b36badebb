import Relabel.Proofs.ClassFile.Exactness
import Relabel.Proofs.Renaming.Payloads

/-!
# Payloads that are copied

Patching reads an index before it knows what to write for it. Between the two the index is owed:
what is written lags behind what is read by the indices that are owed. A step that owes nothing
copies, whatever it does in between, and a payload patched by such a step is the payload it was.

## Main results

- `Patch.Owes`: a step that pays what is owed and copies what it reads.
- `Patch.Copies.counted`, `Patch.Copies.times`: rows of steps.
- `Patch.Copies.run`: a payload that is copied is left as it is.
-/

namespace Relabel

/-! ### Steps that leave the pool -/

namespace Pool

variable {α β : Type} {P P' : α → Prop} {Q : β → Prop}

/-- Where the step succeeds, the pool is as it was, and this holds of what it gives. -/
def Leaves (act : PoolM α) (P : α → Prop) : Prop :=
  ∀ p a q, act p = .ok a q → P a ∧ q = p

namespace Leaves

/-- What an action leaves may be said in weaker terms. -/
theorem imp {act : PoolM α} (h : Leaves act P) (himp : ∀ a, P a → P' a) : Leaves act P' := by
  intro p a q hrun
  obtain ⟨ha, hq⟩ := h p a q hrun
  exact ⟨himp a ha, hq⟩

theorem pure {a : α} (h : P a) : Leaves (Pure.pure a : PoolM α) P := by
  intro p b q hrun
  obtain ⟨rfl, rfl⟩ := EStateM.pure_eq_ok.1 hrun
  exact ⟨h, rfl⟩

theorem throw {e : FormatError} : Leaves (MonadExcept.throw e : PoolM α) P :=
  fun _ _ _ h => (EStateM.throw_eq_ok.1 h).elim

/-- A step outside the pool leaves the pool as it is. -/
theorem ofExcept {x : Except FormatError α} (h : ∀ a, x = .ok a → P a) :
    Leaves (MonadExcept.ofExcept x : PoolM α) P := by
  intro p a q hrun
  obtain ⟨ha, rfl⟩ := EStateM.ofExcept_eq_ok.1 hrun
  exact ⟨h a ha, rfl⟩

/-- Two actions that leave the pool leave it one after the other. -/
theorem bind {act : PoolM α} {next : α → PoolM β} (h : Leaves act P)
    (h' : ∀ a, P a → Leaves (next a) Q) : Leaves (act >>= next) Q := by
  intro p b q hrun
  obtain ⟨a, p₁, hact, hnext⟩ := EStateM.bind_eq_ok.1 hrun
  obtain ⟨ha, rfl⟩ := h p a p₁ hact
  exact h' a ha _ b q hnext

/-- A list is left as it is where each of its values is. -/
theorem listMapM {act : α → PoolM α} {values : List α}
    (h : ∀ a ∈ values, Leaves (act a) (· = a)) : Leaves (values.mapM act) (· = values) := by
  induction values with
  | nil => exact .pure rfl
  | cons a rest ih =>
    rw [List.mapM_cons]
    refine (h a List.mem_cons_self).bind ?_
    rintro _ rfl
    refine (ih fun b hb => h b (List.mem_cons_of_mem _ hb)).bind ?_
    rintro _ rfl
    exact .pure rfl

/-- A table whose entries are left is left. -/
theorem arrayMapM {act : α → PoolM α} {values : Array α}
    (h : ∀ a ∈ values, Leaves (act a) (· = a)) : Leaves (values.mapM act) (· = values) := by
  rw [Array.mapM_eq_mapM_toList, map_eq_pure_bind]
  refine (listMapM fun a ha => h a (Array.mem_toList_iff.1 ha)).bind ?_
  rintro _ rfl
  exact .pure (Array.toArray_toList)

end Leaves

end Pool

/-! ### Steps that copy -/

namespace Patch

open Pool (Leaves)

variable {α β : Type} {owed : List UInt16} {i : UInt16}

/-- Where the step succeeds, the pool is as it was, and what was written are the indices that were
owed and then whatever was read. -/
def Owes (owed : List UInt16) (act : Patch α) : Prop :=
  ∀ st p r q, act st p = .ok r q → ∃ taken, st.input.rest = taken ++ r.2.input.rest ∧
    r.2.written = (owed.flatMap Bytes.ofUInt16 ++ taken).reverse ++ st.written ∧ q = p

/-- What was written is what was read. -/
abbrev Copies (act : Patch α) : Prop :=
  Owes [] act

namespace Owes

/-- A last index is written. -/
theorem write16 : Owes [i] (Patch.write16 i) := by
  intro st p r q h
  obtain ⟨rfl, rfl⟩ := write_eq_ok.1 h
  exact ⟨[], rfl, by simp, rfl⟩

/-- The index that was read first is written first. -/
theorem write16_bind {next : Unit → Patch β} (h : Owes owed (next ())) :
    Owes (i :: owed) (Patch.write16 i >>= next) := by
  intro st p r q hrun
  obtain ⟨⟨⟩, _, _, hwrite, hnext⟩ := bind_eq_ok.1 hrun
  obtain ⟨⟨⟩, rfl⟩ := write_eq_ok.1 hwrite
  obtain ⟨taken, hrest, hwritten, rfl⟩ := h _ _ _ _ hnext
  exact ⟨taken, hrest, by rw [hwritten]; simp, rfl⟩

/-- An index that was read is owed behind the others. -/
theorem read16_bind {next : UInt16 → Patch β} (h : ∀ i, Owes (owed ++ [i]) (next i)) :
    Owes owed (Patch.read Decoder.u16 >>= next) := by
  intro st p r q hrun
  obtain ⟨i, _, _, hread, hnext⟩ := bind_eq_ok.1 hrun
  obtain ⟨_, input, hi, ⟨⟩, rfl⟩ := read_eq_ok.1 hread
  obtain ⟨_, hrest, rfl⟩ := Decoder.takes_u16 _ _ _ hi
  obtain ⟨taken, hrest', hwritten, rfl⟩ := h i _ _ _ _ hnext
  refine ⟨Bytes.ofUInt16 i ++ taken, ?_, ?_, rfl⟩
  · rw [hrest, List.append_assoc, ← hrest']
  · rw [hwritten]
    simp

/-- What leaves the pool pays nothing. -/
theorem lift_bind {P : α → Prop} {act : PoolM α} {next : α → Patch β} (hact : Leaves act P)
    (h : ∀ a, P a → Owes owed (next a)) : Owes owed ((liftM act : Patch α) >>= next) := by
  intro st p r q hrun
  obtain ⟨a, _, p₁, hlift, hnext⟩ := bind_eq_ok.1 hrun
  obtain ⟨_, hrun', ⟨⟩⟩ := lift_eq_ok.1 hlift
  obtain ⟨ha, rfl⟩ := hact _ _ _ hrun'
  exact h a ha _ _ _ _ hnext

/-- Once all is paid, the rest is copied. -/
theorem bind {act : Patch α} {next : α → Patch β} (h : Owes owed act)
    (h' : ∀ a, Copies (next a)) : Owes owed (act >>= next) := by
  intro st p r q hrun
  obtain ⟨a, st₁, p₁, hact, hnext⟩ := bind_eq_ok.1 hrun
  obtain ⟨taken, hrest, hwritten, rfl⟩ := h _ _ _ _ hact
  obtain ⟨taken', hrest', hwritten', rfl⟩ := h' a _ _ _ _ hnext
  dsimp only at hrest hwritten
  refine ⟨taken ++ taken', ?_, ?_, rfl⟩
  · rw [hrest, hrest', List.append_assoc]
  · rw [hwritten', hwritten]
    simp

end Owes

namespace Copies

theorem pure (a : α) : Copies (Pure.pure a : Patch α) := by
  intro st p r q h
  obtain ⟨rfl, rfl⟩ := pure_eq_ok.1 h
  exact ⟨[], rfl, rfl, rfl⟩

/-- A function of the result does not matter to what is copied. -/
theorem map {act : Patch α} (f : α → β) (h : Copies act) : Copies (f <$> act) := by
  rw [map_eq_pure_bind]
  exact h.bind fun a => pure (f a)

/-- Nothing is written where reading stops. -/
theorem stop : Copies (Patch.read Decoder.stop : Patch α) := by
  intro st p r q h
  obtain ⟨_, _, hstop, -⟩ := read_eq_ok.1 h
  cases hstop

/-- One byte is copied as it is. -/
theorem copy8 : Copies Patch.copy8 := by
  intro st p r q h
  simp only [Patch.copy8, bind_eq_ok, read_eq_ok, write_eq_ok, pure_eq_ok] at h
  obtain ⟨b, _, _, ⟨_, input, hb, ⟨⟩, rfl⟩, _, _, _, ⟨⟨⟩, rfl⟩, rfl, rfl⟩ := h
  obtain ⟨_, hrest, rfl⟩ := Decoder.takes_u8 _ _ _ hb
  exact ⟨[b], hrest, by simp, rfl⟩

theorem copy16 : Copies Patch.copy16 :=
  Owes.read16_bind fun i => Owes.write16_bind (pure i)

/-- A run of bytes is copied as it is. -/
theorem copy (n : Nat) : Copies (Patch.copy n) := by
  intro st p r q h
  simp only [Patch.copy, bind_eq_ok, read_eq_ok, write_eq_ok] at h
  obtain ⟨bytes, _, _, ⟨_, input, hbytes, ⟨⟩, rfl⟩, rfl, rfl⟩ := h
  obtain ⟨taken, hrest, rfl, -⟩ := Decoder.takes_bytes n _ _ _ hbytes
  exact ⟨taken, hrest, by simp, rfl⟩

theorem bytesLeft : Copies Patch.bytesLeft := by
  intro st p r q h
  obtain ⟨rfl, rfl⟩ := EStateM.pure_eq_ok.1 h
  exact ⟨[], rfl, rfl, rfl⟩

/-- A copy is one however often it is made. -/
theorem times {act : Patch Unit} (h : Copies act) (n : Nat) : Copies (Patch.times act n) := by
  induction n with
  | zero => exact pure ()
  | succ n ih => exact h.bind fun _ => ih

theorem counted {act : Patch Unit} (h : Copies act) : Copies (Patch.counted act) :=
  copy16.bind fun n => h.times n.toNat

/-- A payload whose front is copied is left as it is. -/
theorem run {act : Patch Unit} (h : Copies act) (data : Bytes) :
    Leaves (act.run data) (· = data) := by
  intro p written q hrun
  simp only [Patch.run, EStateM.bind_eq_ok, EStateM.pure_eq_ok] at hrun
  obtain ⟨⟨⟨⟩, st⟩, _, hact, rfl, rfl⟩ := hrun
  obtain ⟨taken, hrest, hwritten, rfl⟩ := h _ _ _ _ hact
  dsimp only at hrest hwritten
  refine ⟨?_, rfl⟩
  rw [hwritten, hrest]
  simp

end Copies

end Patch

end Relabel
