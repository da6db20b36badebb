import Mathlib.Data.List.Forall2
import Relabel.ClassFile.Decoder

/-!
# Taking steps apart

A decoder, and a change to a pool, is a function on a state that gives a value or fails. The lemmas
below say when such a step succeeds in terms of the steps it is made of, so that `simp only` turns a
successful run into the runs of its parts.
-/

namespace EStateM

variable {ε σ α β : Type}

/-- Two steps in a row succeed when both do. -/
theorem bind_eq_ok {x : EStateM ε σ α} {f : α → EStateM ε σ β} {s t : σ} {b : β} :
    (x >>= f) s = .ok b t ↔ ∃ a u, x s = .ok a u ∧ f a u = .ok b t := by
  show EStateM.bind x f s = .ok b t ↔ _
  unfold EStateM.bind
  cases hx : x s with
  | ok a u => exact ⟨fun h => ⟨a, u, rfl, h⟩, by rintro ⟨_, _, ⟨⟩, h⟩; exact h⟩
  | error e u => simp

@[simp]
theorem pure_eq_ok {a b : α} {s t : σ} :
    (pure a : EStateM ε σ α) s = .ok b t ↔ a = b ∧ s = t := by
  show Result.ok a s = .ok b t ↔ _
  simp

@[simp]
theorem throw_eq_ok {e : ε} {b : α} {s t : σ} :
    (throw e : EStateM ε σ α) s = .ok b t ↔ False := by
  show Result.error e s = .ok b t ↔ _
  simp

/-- After a step that succeeds the next one starts where it ended. -/
theorem bind_of_eq_ok {x : EStateM ε σ α} {f : α → EStateM ε σ β} {s t : σ} {a : α}
    (h : x s = .ok a t) : (x >>= f) s = f a t := by
  show EStateM.bind x f s = _
  rw [EStateM.bind, h]

/-- Of two steps in a row the first that fails makes them fail. -/
theorem bind_eq_error {x : EStateM ε σ α} {f : α → EStateM ε σ β} {s t : σ} {e : ε} :
    (x >>= f) s = .error e t ↔ x s = .error e t ∨ ∃ a u, x s = .ok a u ∧ f a u = .error e t := by
  show EStateM.bind x f s = .error e t ↔ _
  unfold EStateM.bind
  split <;> simp [*]

@[simp]
theorem pure_eq_error {a : α} {s t : σ} {e : ε} :
    (pure a : EStateM ε σ α) s = .error e t ↔ False := by
  show Result.ok a s = .error e t ↔ _
  simp

@[simp]
theorem throw_eq_error {e e' : ε} {s t : σ} :
    (throw e : EStateM ε σ α) s = .error e' t ↔ e = e' ∧ s = t := by
  show Result.error e s = .error e' t ↔ _
  simp

/-- A computation without state succeeds when it has a value, and leaves the state alone. -/
@[simp]
theorem ofExcept_eq_ok {x : Except ε α} {b : α} {s t : σ} :
    (MonadExcept.ofExcept x : EStateM ε σ α) s = .ok b t ↔ x = .ok b ∧ s = t := by
  cases x with
  | ok a =>
    show Result.ok a s = .ok b t ↔ _
    simp
  | error e =>
    show Result.error e s = .ok b t ↔ _
    simp

/-- A mapped step ends where the step does. -/
theorem map_eq_ok {f : α → β} {x : EStateM ε σ α} {s t : σ} {b : β} :
    (f <$> x) s = .ok b t ↔ ∃ a, x s = .ok a t ∧ f a = b := by
  show EStateM.map f x s = .ok b t ↔ _
  unfold EStateM.map
  cases hx : x s with
  | ok a u =>
    constructor
    · rintro ⟨⟩
      exact ⟨a, rfl, rfl⟩
    · rintro ⟨_, ⟨⟩, rfl⟩
      rfl
  | error e u => simp

end EStateM

namespace Except

variable {ε α β : Type}

/-- Two steps succeed exactly where both do, one after the other. -/
theorem bind_eq_ok {x : Except ε α} {f : α → Except ε β} {b : β} :
    (x >>= f) = .ok b ↔ ∃ a, x = .ok a ∧ f a = .ok b := by
  show Except.bind x f = .ok b ↔ _
  unfold Except.bind
  split <;> simp

/-- Two steps in a row succeed iff the first does, and the second on what the first gives. -/
theorem exists_bind_eq_ok {x : Except ε α} {f : α → Except ε β} :
    (∃ b, (x >>= f) = .ok b) ↔ ∃ a, x = .ok a ∧ ∃ b, f a = .ok b := by
  simp only [bind_eq_ok]
  constructor
  · rintro ⟨b, a, ha, hb⟩
    exact ⟨a, ha, b, hb⟩
  · rintro ⟨a, ha, b, hb⟩
    exact ⟨b, a, ha, hb⟩

/-- A mapped step succeeds exactly where the step does. -/
theorem map_eq_ok {f : α → β} {x : Except ε α} {b : β} :
    f <$> x = .ok b ↔ ∃ a, x = .ok a ∧ f a = b := by
  show Except.map f x = .ok b ↔ _
  unfold Except.map
  split <;> simp

@[simp]
theorem pure_eq_ok {a b : α} : (pure a : Except ε α) = .ok b ↔ a = b := by
  simp [pure, Except.pure]

@[simp]
theorem pure_eq_error {a : α} {e : ε} : (pure a : Except ε α) = .error e ↔ False := by
  simp [pure, Except.pure]

@[simp]
theorem throw_eq_ok {e : ε} {b : α} : (throw e : Except ε α) = .ok b ↔ False := by
  simp [throw, throwThe, MonadExceptOf.throw]

/-- Of two steps in a row the first that fails makes them fail. -/
theorem bind_eq_error {x : Except ε α} {f : α → Except ε β} {e : ε} :
    (x >>= f) = .error e ↔ x = .error e ∨ ∃ a, x = .ok a ∧ f a = .error e := by
  show Except.bind x f = .error e ↔ _
  unfold Except.bind
  split <;> simp

/-- Errors in other words leave a success as it is. -/
theorem mapError_eq_ok {ε' : Type} {f : ε → ε'} {x : Except ε α} {a : α} :
    x.mapError f = .ok a ↔ x = .ok a := by
  cases x <;> simp [Except.mapError]

/-- A mapped error comes from an error. -/
theorem mapError_eq_error {ε' : Type} {f : ε → ε'} {x : Except ε α} {e' : ε'} :
    x.mapError f = .error e' ↔ ∃ e, x = .error e ∧ f e = e' := by
  cases x <;> simp [Except.mapError]

end Except

namespace Relabel

/-! ### Loops -/

/-- A loop that goes on from `a`, as long as there is a next state, stops at `b`. -/
inductive EndsAt {α : Type} (next : α → Option α) : α → α → Prop
  | stop {a : α} : next a = none → EndsAt next a a
  | pass {a b c : α} : next a = some b → EndsAt next b c → EndsAt next a c

/-- Where a loop stops there is no next state. -/
theorem EndsAt.next_eq_none {α : Type} {next : α → Option α} {a b : α} (h : EndsAt next a b) :
    next b = none := by
  induction h with
  | stop h => exact h
  | pass _ _ ih => exact ih

/-- A loop that has no next state stops where it starts. -/
theorem EndsAt.eq_of_eq_none {α : Type} {next : α → Option α} {a b : α} (h : EndsAt next a b)
    (ha : next a = none) : b = a := by
  cases h with
  | stop => rfl
  | pass hnext => cases ha.symm.trans hnext

/-- What each pass of a loop keeps holds where it stops. -/
theorem EndsAt.invariant {α : Type} {next : α → Option α} {P : α → Prop} {a b : α}
    (h : EndsAt next a b) (hpass : ∀ a b, next a = some b → P a → P b) (ha : P a) : P b := by
  induction h with
  | stop => exact ha
  | pass hnext _ ih => exact ih (hpass _ _ hnext ha)

/-- A loop stops at one state. -/
theorem EndsAt.unique {α : Type} {next : α → Option α} {a b c : α} (hb : EndsAt next a b)
    (hc : EndsAt next a c) : b = c := by
  induction hb with
  | stop ha => exact (hc.eq_of_eq_none ha).symm
  | pass hnext _ ih =>
    cases hc with
    | stop ha => cases ha.symm.trans hnext
    | pass hnext' hc =>
      obtain rfl := Option.some.inj (hnext.symm.trans hnext')
      exact ih hc

/-- Of two loops that stay related pass for pass, one stops where the other does. -/
theorem EndsAt.simulate {α β : Type} {next : α → Option α} {next' : β → Option β}
    {R : α → β → Prop} (hpass : ∀ a b, R a b → (next a = none ∧ next' b = none) ∨
      ∃ a' b', next a = some a' ∧ next' b = some b' ∧ R a' b')
    {a c : α} {b : β} (h : EndsAt next a c) (hab : R a b) :
    ∃ d, EndsAt next' b d ∧ R c d := by
  induction h generalizing b with
  | @stop a hnext =>
    rcases hpass a b hab with ⟨-, hnext'⟩ | ⟨_, _, hnext', -⟩
    · exact ⟨b, .stop hnext', hab⟩
    · cases hnext.symm.trans hnext'
  | @pass a _ _ hnext _ ih =>
    rcases hpass a b hab with ⟨hnext', -⟩ | ⟨a', b', hnext', hother, hR⟩
    · cases hnext.symm.trans hnext'
    · obtain rfl := Option.some.inj (hnext.symm.trans hnext')
      obtain ⟨d, hends, hd⟩ := ih hR
      exact ⟨d, .pass hother hends, hd⟩

/-- Where `p` implies `q` and some element has only `q`, fewer elements have `p`. -/
theorem countP_lt_countP {α : Type} {p q : α → Bool} {l : List α} (himp : ∀ x, p x → q x) {a : α}
    (ha : a ∈ l) (hp : ¬ p a) (hq : q a) : l.countP p < l.countP q := by
  obtain ⟨before, after, rfl⟩ := List.append_of_mem ha
  have hbefore : before.countP p ≤ before.countP q := List.countP_mono_left fun x _ => himp x
  have hafter : after.countP p ≤ after.countP q := List.countP_mono_left fun x _ => himp x
  rw [List.countP_append, List.countP_append, List.countP_cons_of_neg hp,
    List.countP_cons_of_pos hq]
  omega

/-! ### Lists of steps -/

/-- A list of attempts that succeeds gives the result of each. -/
theorem forall₂_of_mapM_eq_ok {ε α β : Type} {f : α → Except ε β} {values : List α}
    {results : List β} (h : values.mapM f = .ok results) :
    List.Forall₂ (fun a b => f a = .ok b) values results := by
  induction values generalizing results with
  | nil =>
    obtain rfl := Except.pure_eq_ok.1 h
    exact .nil
  | cons a rest ih =>
    simp only [List.mapM_cons, Except.bind_eq_ok, Except.pure_eq_ok] at h
    obtain ⟨b, hb, bs, hbs, rfl⟩ := h
    exact .cons hb (ih hbs)

/-- A list of steps that give these results gives the list of them. -/
theorem mapM_eq_ok_of_forall₂ {ε α β : Type} {f : α → Except ε β} {values : List α}
    {results : List β} (h : List.Forall₂ (fun a b => f a = .ok b) values results) :
    values.mapM f = .ok results := by
  induction h with
  | nil => rfl
  | cons hab _ ih =>
    simp only [List.mapM_cons, Except.bind_eq_ok, Except.pure_eq_ok]
    exact ⟨_, hab, _, ih, rfl⟩

/-- A list of attempts succeeds iff each of them does. -/
theorem exists_mapM_eq_ok_iff {ε α β : Type} {f : α → Except ε β} {values : List α} :
    (∃ results, values.mapM f = .ok results) ↔ ∀ a ∈ values, ∃ b, f a = .ok b := by
  induction values with
  | nil => exact iff_of_true ⟨[], rfl⟩ (List.forall_mem_nil _)
  | cons a rest ih =>
    simp only [List.mapM_cons, Except.exists_bind_eq_ok, Except.pure_eq_ok, exists_eq', and_true,
      exists_and_right, ih, List.forall_mem_cons]

/-- A list of attempts fails with the first of them that fails. -/
theorem mapM_eq_error_iff {ε α β : Type} {f : α → Except ε β} {values : List α} {e : ε} :
    values.mapM f = .error e ↔ ∃ before a after, values = before ++ a :: after ∧
      (∀ earlier ∈ before, ∃ b, f earlier = .ok b) ∧ f a = .error e := by
  constructor
  · intro h
    induction values with
    | nil => exact (Except.pure_eq_error.1 h).elim
    | cons a rest ih =>
      simp only [List.mapM_cons, Except.bind_eq_error, Except.pure_eq_error, and_false,
        exists_false, or_false] at h
      rcases h with ha | ⟨b, hb, hrest⟩
      · exact ⟨[], a, rest, rfl, fun _ hnil => (List.not_mem_nil hnil).elim, ha⟩
      · obtain ⟨before, c, after, rfl, hbefore, hc⟩ := ih hrest
        exact ⟨a :: before, c, after, rfl, List.forall_mem_cons.2 ⟨⟨b, hb⟩, hbefore⟩, hc⟩
  · rintro ⟨before, a, after, rfl, hbefore, ha⟩
    induction before with
    | nil => exact List.mapM_cons.trans (Except.bind_eq_error.2 (.inl ha))
    | cons earlier before ih =>
      obtain ⟨⟨b, hb⟩, hbefore⟩ := List.forall_mem_cons.1 hbefore
      rw [List.cons_append, List.mapM_cons]
      exact Except.bind_eq_error.2 (.inr ⟨b, hb, Except.bind_eq_error.2 (.inl (ih hbefore))⟩)

/-- Relations between lists compose as those between their elements do. -/
theorem forall₂_comp {α β γ : Type} {R : α → β → Prop} {S : β → γ → Prop} {T : α → γ → Prop}
    (hcomp : ∀ a b c, R a b → S b c → T a c) {as : List α} {bs : List β} {cs : List γ}
    (h : List.Forall₂ R as bs) (h' : List.Forall₂ S bs cs) : List.Forall₂ T as cs := by
  induction h generalizing cs with
  | nil =>
    cases h'
    exact .nil
  | cons ha _ ih =>
    cases h' with
    | cons hb hbs => exact .cons (hcomp _ _ _ ha hb) (ih hbs)

/-- Lists related element by element have related elements at each place. -/
theorem exists_getElem?_of_forall₂ {α β : Type} {R : α → β → Prop} {as : List α} {bs : List β}
    (h : List.Forall₂ R as bs) {i : Nat} {a : α} (ha : as[i]? = some a) :
    ∃ b, bs[i]? = some b ∧ R a b := by
  obtain ⟨hlt, rfl⟩ := List.getElem?_eq_some_iff.1 ha
  have hlt' : i < bs.length := h.length_eq ▸ hlt
  exact ⟨bs[i], List.getElem?_eq_getElem hlt', h.get hlt hlt'⟩

/-- A partial map gives, in order, the values of the elements that have one. -/
theorem forall₂_filterMap {α β : Type} (f : α → Option β) (l : List α) :
    List.Forall₂ (fun a b => f a = some b) (l.filter fun a => (f a).isSome) (l.filterMap f) := by
  induction l with
  | nil => exact .nil
  | cons a rest ih =>
    cases ha : f a with
    | none => simpa [ha] using ih
    | some b => simpa [ha] using ih

/-- A list is as empty as one it is related to. -/
theorem eq_nil_iff_of_forall₂ {α β : Type} {R : α → β → Prop} {as : List α} {bs : List β}
    (h : List.Forall₂ R as bs) : as = [] ↔ bs = [] := by
  cases h <;> simp

/-- An entry of the one list has a partner in the other. -/
theorem exists_of_mem_forall₂ {α β : Type} {R : α → β → Prop} {as : List α} {bs : List β}
    (h : List.Forall₂ R as bs) {a : α} (ha : a ∈ as) : ∃ b ∈ bs, R a b := by
  obtain ⟨i, hi⟩ := List.mem_iff_getElem?.1 ha
  obtain ⟨b, hb, hab⟩ := exists_getElem?_of_forall₂ h hi
  exact ⟨b, List.mem_iff_getElem?.2 ⟨i, hb⟩, hab⟩

end Relabel
