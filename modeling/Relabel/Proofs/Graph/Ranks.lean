import Mathlib.Algebra.Order.BigOperators.Group.Finset
import Mathlib.Data.Finset.Card
import Mathlib.Data.Nat.Log
import Relabel.Proofs.Graph.UnionFind

/-!
# Calls of find and union

Any number of calls keep the sets a forest in which the loops of `find` come to an end, and whose
roots tell which elements the joins have connected. A root of rank `k` has at least `2 ^ k` elements
below it: its rank grows only when a root of the same rank is hung below it. So ranks stay far below
what a byte can hold.

## Main results

- `Forest.find_ends`: both loops of `find` end, and with what `find` gives.
- `Ranked.union`: joining two sets keeps ranks below the logarithms of the sizes.
- `correct_of_calls`: what holds after any number of calls.
-/

namespace Relabel.UnionFind

variable {u v : UnionFind} {parent parent' : Array Nat} {rank rank' : Array UInt8}
  {k j x y r a b l w n : Nat}

/-! ### Loops -/

/-- The loop that points the elements from one up to the root at the root. It ends in front of an
element that has the root as its parent. -/
inductive Shortens (r : Nat) : Array Nat → Nat → Array Nat → Prop
  | done {parent : Array Nat} {x : Nat} : parent[x]? = some r → Shortens r parent x parent
  | step {parent parent' : Array Nat} {x next : Nat} : parent[x]? = some next → next ≠ r →
    Shortens r (parent.setIfInBounds x r) next parent' → Shortens r parent x parent'

/-- A new parent of an element further down changes nothing on the way from an element to its
root. -/
theorem Climbs.set_of_lt (hx : x < parent.size) (hclimb : Climbs parent k x r)
    (h : Climbs parent j y r) (hjk : j < k) (z : Nat) : Climbs (parent.setIfInBounds x z) j y r := by
  induction h with
  | @root r hr =>
    refine .root ?_
    -- `x` is further from the root than anything on this path.
    have hxr : x ≠ r := by
      rintro rfl
      exact absurd (hclimb.unique (.root hr)).1 (by omega)
    rwa [getD_setIfInBounds hx, if_neg hxr]
  | @step j y r hne hstep ih =>
    have hxy : x ≠ y := by
      rintro rfl
      exact absurd (hclimb.unique (.step hne hstep)).1 (by omega)
    have hy : (parent.setIfInBounds x z).getD y y = parent.getD y y := by
      rw [getD_setIfInBounds hx, if_neg hxy]
    exact .step (by rwa [hy]) (by rw [hy]; exact ih hclimb (by omega))

/-- The second loop needs no more steps than there are to the root. -/
theorem Forest.shortens (h : Forest parent) (hx : x < parent.size) (hclimb : Climbs parent k x r)
    {fuel : Nat} (hfuel : k ≤ fuel) : Shortens r parent x (UnionFind.compressFrom r fuel parent x) := by
  induction k generalizing parent x fuel with
  | zero =>
    -- Nothing is left to shorten at the root.
    cases hclimb with
    | root hr =>
      have hparent : parent[r]? = some r := by
        simpa [Array.getD_eq_getD_getElem?, hx] using hr
      cases fuel with
      | zero => exact .done hparent
      | succ fuel =>
        have hstop : UnionFind.compressFrom r (fuel + 1) parent r = parent := by
          simp [UnionFind.compressFrom, Array.getD_eq_getD_getElem?, hparent]
        rw [hstop]
        exact .done hparent
  | succ k ih =>
    obtain ⟨fuel, rfl⟩ : ∃ rest, fuel = rest + 1 := ⟨fuel - 1, by omega⟩
    -- A root does not climb, so the walk has not ended yet.
    have hxr : x ≠ r := by
      rintro rfl
      exact absurd (hclimb.unique (.root hclimb.isRoot)).1 (by omega)
    cases hclimb with
    | step hne hstep =>
      have hnext : parent[x]? = some (parent.getD x x) := by
        simp [Array.getD_eq_getD_getElem?, hx]
      have hparent : parent.getD x r = parent.getD x x := by
        simp [Array.getD_eq_getD_getElem?, hx]
      rw [UnionFind.compressFrom, hparent]
      -- The walk ends one step below the root, and goes on from the next element otherwise.
      by_cases hroot : parent.getD x x = r
      · rw [if_pos hroot]
        exact .done (hroot ▸ hnext)
      · rw [if_neg hroot]
        have hclimb := Climbs.step hne hstep
        refine .step hnext hroot (ih (h.shorten hx hxr hclimb) ?_ ?_ (by omega))
        · rw [Array.size_setIfInBounds]
          exact h.parent_lt x hx
        · exact hclimb.set_of_lt hx hstep (Nat.lt_succ_self k) r

/-- Both loops of `find` come to an end: the first at the root, after fewer steps than there are
elements, and the second with the parents that `find` leaves. -/
theorem Forest.find_ends (h : Forest u.parent) (hx : x < u.parent.size) :
    (∃ k < u.parent.size, Climbs u.parent k x (u.find x).1) ∧
      Shortens (u.find x).1 u.parent x (u.find x).2.parent := by
  obtain ⟨k, hclimb⟩ := h.climbs_root hx
  have hk := h.steps_lt hx hclimb
  exact ⟨⟨k, hk, hclimb⟩, h.shortens hx hclimb (Nat.le_of_lt hk)⟩

/-! ### Ranks -/

/-- The elements with a root. -/
def component (u : UnionFind) (r : Nat) : Finset Nat :=
  {x ∈ Finset.range u.parent.size | u.root x = r}

theorem mem_component : x ∈ u.component r ↔ x < u.parent.size ∧ u.root x = r := by
  simp [component]

/-- Every root has a rank, and as many elements below it as the rank says. -/
structure Ranked (u : UnionFind) : Prop where
  size_eq : u.rank.size = u.parent.size
  two_pow_le : ∀ r < u.parent.size, u.root r = r →
    2 ^ (u.rank.getD r 0).toNat ≤ (u.component r).card

/-- Every tree of one element has rank zero. -/
theorem ranked_singletons (n : Nat) : Ranked (singletons n) where
  size_eq := by simp [singletons]
  two_pow_le r hr _ := by
    have hmem : r ∈ (singletons n).component r := mem_component.2 ⟨hr, root_singletons n r⟩
    have hrank : ((singletons n).rank.getD r 0).toNat = 0 := by
      simp only [singletons, Array.getD_eq_getD_getElem?, Array.getElem?_replicate]
      split <;> rfl
    rw [hrank]
    exact Finset.card_pos.2 ⟨r, hmem⟩

/-- Two sets of disjoint sets with the same roots and the same ranks. -/
structure Unmoved (u v : UnionFind) : Prop where
  size_eq : v.parent.size = u.parent.size
  root : ∀ x < u.parent.size, v.root x = u.root x
  rank_eq : v.rank = u.rank

/-- Finding moves no element to another tree. -/
theorem Forest.unmoved_find (h : Forest u.parent) (hx : x < u.parent.size) :
    Unmoved u (u.find x).2 where
  size_eq := (h.find hx).size_eq
  root _ hy := (h.find hx).root_eq h hy
  rank_eq := rfl

/-- The bound on the ranks is kept where no element moves. -/
theorem Unmoved.ranked (h : Unmoved u v) (hranked : Ranked u) : Ranked v := by
  refine ⟨by rw [h.rank_eq, h.size_eq, hranked.size_eq], fun r hr hroot => ?_⟩
  rw [h.size_eq] at hr
  have hcomponent : v.component r = u.component r := by
    ext y
    rw [mem_component, mem_component, h.size_eq]
    exact and_congr_right fun hy => by rw [h.root y hy]
  rw [hcomponent, h.rank_eq]
  exact hranked.two_pow_le r hr ((h.root r hr).symm.trans hroot)

/-- Disjoint sets made of others by hanging the root `l` below another root `w`. -/
structure Linked (u v : UnionFind) (l w : Nat) : Prop where
  ne : l ≠ w
  l_lt : l < u.parent.size
  w_lt : w < u.parent.size
  l_root : u.root l = l
  w_root : u.root w = w
  size_eq : v.parent.size = u.parent.size
  root : ∀ x < u.parent.size, v.root x = if u.root x = l then w else u.root x
  raised : Raised u.rank l w v.rank

/-- The root of a root is that root. -/
theorem Forest.root_root (h : Forest u.parent) (hx : x < u.parent.size) :
    u.root (u.root x) = u.root x := by
  obtain ⟨k, hclimb⟩ := h.climbs_root hx
  exact h.root_eq (h.root_lt hx) (.root hclimb.isRoot)

/-- Joining two sets moves nothing, or it hangs one root below another. -/
theorem Forest.unmoved_or_linked (h : Forest u.parent) (ha : a < u.parent.size)
    (hb : b < u.parent.size) : Unmoved u (u.union a b) ∨ ∃ l w, Linked u (u.union a b) l w := by
  obtain ⟨-, hsize, l, w, hlw, hroot, hraised⟩ := h.union ha hb
  -- The two lie in one tree already, or one root is put under the other.
  by_cases hne : l = w
  · subst hne
    refine .inl ⟨hsize, fun x hx => ?_, ?_⟩
    · rw [hroot x hx]
      split
      · next hl => exact hl.symm
      · rfl
    · generalize (u.union a b).rank = rank' at hraised
      cases hraised with
      | same => rfl
      | lower => rfl
      | equal hne => exact absurd rfl hne
  · have hroots : u.root l = l ∧ u.root w = w ∧ l < u.parent.size ∧ w < u.parent.size := by
      rcases hlw with ⟨rfl, rfl⟩ | ⟨rfl, rfl⟩
      · exact ⟨h.root_root ha, h.root_root hb, h.root_lt ha, h.root_lt hb⟩
      · exact ⟨h.root_root hb, h.root_root ha, h.root_lt hb, h.root_lt ha⟩
    obtain ⟨hl, hw, hlLt, hwLt⟩ := hroots
    exact .inr ⟨l, w, hne, hlLt, hwLt, hl, hw, hsize, hroot, hraised⟩

namespace Linked

/-- What is below a root that is not hung below another stays there. -/
theorem component_subset (h : Linked u v l w) (hr : r ≠ l) : u.component r ⊆ v.component r := by
  intro x hx
  obtain ⟨hlt, rfl⟩ := mem_component.1 hx
  refine mem_component.2 ⟨h.size_eq ▸ hlt, ?_⟩
  rw [h.root x hlt, if_neg hr]

/-- What is below the root that is hung below another goes there with it. -/
theorem component_subset_above (h : Linked u v l w) : u.component l ⊆ v.component w := by
  intro x hx
  obtain ⟨hlt, rfl⟩ := mem_component.1 hx
  refine mem_component.2 ⟨h.size_eq ▸ hlt, ?_⟩
  rw [h.root x hlt, if_pos rfl]

/-- The tree of the winner takes in the tree of the loser. -/
theorem card_add_card_le (h : Linked u v l w) :
    (u.component l).card + (u.component w).card ≤ (v.component w).card := by
  have hdisjoint : Disjoint (u.component l) (u.component w) := by
    refine Finset.disjoint_left.2 fun x hxl hxw => h.ne ?_
    exact (mem_component.1 hxl).2.symm.trans (mem_component.1 hxw).2
  rw [← Finset.card_union_of_disjoint hdisjoint]
  exact Finset.card_le_card
    (Finset.union_subset h.component_subset_above (h.component_subset h.ne.symm))

/-- A root that stays one was one. -/
theorem isRoot (h : Linked u v l w) (hr : r < u.parent.size) (hroot : v.root r = r) :
    u.root r = r ∧ r ≠ l := by
  rw [h.root r hr] at hroot
  split at hroot
  · next hl =>
    rw [← hroot, h.w_root] at hl
    exact absurd hl.symm h.ne
  · next hl => exact ⟨hroot, hroot ▸ hl⟩

/-- Each root of the joined sets has as many elements below it as its rank says. -/
theorem two_pow_le (h : Linked u v l w) (hranked : Ranked u) (hr : r < u.parent.size)
    (hroot : v.root r = r) :
    2 ^ (v.rank.getD r 0).toNat ≤ (v.component r).card := by
  obtain ⟨huroot, hrl⟩ := h.isRoot hr hroot
  have hkept : 2 ^ (u.rank.getD r 0).toNat ≤ (v.component r).card :=
    (hranked.two_pow_le r hr huroot).trans (Finset.card_le_card (h.component_subset hrl))
  have hraised := h.raised
  generalize v.rank = rank' at hraised
  cases hraised with
  | same => exact hkept
  | lower => exact hkept
  | equal _ hequal =>
    by_cases hrw : w = r
    -- Two roots of one rank have twice as many elements below them as one of them must have.
    · subst hrw
      have hnew : (u.rank.setIfInBounds w (u.rank.getD w 0 + 1)).getD w 0 = u.rank.getD w 0 + 1 := by
        simp [Array.getD_eq_getD_getElem?, hranked.size_eq, h.w_lt]
      calc 2 ^ ((u.rank.setIfInBounds w (u.rank.getD w 0 + 1)).getD w 0).toNat
          ≤ 2 ^ ((u.rank.getD w 0).toNat + 1) := by
            rw [hnew, UInt8.toNat_add]
            exact Nat.pow_le_pow_right (by decide) (Nat.mod_le _ _)
        _ = 2 ^ (u.rank.getD l 0).toNat + 2 ^ (u.rank.getD w 0).toNat := by
            rw [hequal, Nat.pow_succ, Nat.mul_two]
        _ ≤ (u.component l).card + (u.component w).card :=
            Nat.add_le_add (hranked.two_pow_le l h.l_lt h.l_root)
              (hranked.two_pow_le w h.w_lt h.w_root)
        _ ≤ (v.component w).card := h.card_add_card_le
    · have hold : (u.rank.setIfInBounds w (u.rank.getD w 0 + 1)).getD r 0 = u.rank.getD r 0 := by
        simp [Array.getD_eq_getD_getElem?, hrw]
      rwa [hold]

/-- A join gives no element a rank that had none. -/
theorem rank_size (h : Linked u v l w) : v.rank.size = u.rank.size := by
  have hraised := h.raised
  generalize v.rank = rank' at hraised
  cases hraised with
  | same => rfl
  | lower => rfl
  | equal => exact Array.size_setIfInBounds

/-- The bound on the ranks is kept by a join. -/
theorem ranked (h : Linked u v l w) (hranked : Ranked u) : Ranked v where
  size_eq := h.rank_size.trans (hranked.size_eq.trans h.size_eq.symm)
  two_pow_le _ hr hroot := h.two_pow_le hranked (h.size_eq ▸ hr) hroot

end Linked

/-- The bound on the ranks is kept by every call of `union`. -/
theorem Ranked.union (h : Ranked u) (hforest : Forest u.parent) (ha : a < u.parent.size)
    (hb : b < u.parent.size) : Ranked (u.union a b) := by
  rcases hforest.unmoved_or_linked ha hb with hunmoved | ⟨l, w, hlinked⟩
  · exact hunmoved.ranked h
  · exact hlinked.ranked h

/-! ### Calls -/

/-- A call on disjoint sets. -/
inductive Call where
  | find (x : Nat)
  | union (a b : Nat)

/-- The elements of a call are among the first `n` numbers. -/
def Call.InRange (n : Nat) : Call → Prop
  | .find x => x < n
  | .union a b => a < n ∧ b < n

instance (n : Nat) : DecidablePred (Call.InRange n)
  | .find x => inferInstanceAs (Decidable (x < n))
  | .union a b => inferInstanceAs (Decidable (a < n ∧ b < n))

/-- The disjoint sets after a call. -/
def Call.apply (u : UnionFind) : Call → UnionFind
  | .find x => (u.find x).2
  | .union a b => u.union a b

/-- The disjoint sets after calls. -/
def run (u : UnionFind) (calls : List Call) : UnionFind :=
  calls.foldl Call.apply u

/-- Two elements that one of the calls joins. -/
def Joined (calls : List Call) (a b : Nat) : Prop :=
  Call.union a b ∈ calls

variable {calls : List Call} {call : Call}

/-- Finding joins nothing. -/
theorem joined_append_find : Joined (calls ++ [.find x]) a b ↔ Joined calls a b := by
  simp [Joined]

/-- One call of `union` joins its two elements and nothing else. -/
theorem joined_append_union :
    Joined (calls ++ [.union x y]) a b ↔ Joined calls a b ∨ a = x ∧ b = y := by
  simp [Joined]

/-- What every call keeps: a forest with ranks, in which two elements have one root if and only if
the joins so far connect them. -/
structure Sound (n : Nat) (calls : List Call) (u : UnionFind) : Prop where
  inRange : ∀ call ∈ calls, call.InRange n
  forest : Forest u.parent
  size_eq : u.parent.size = n
  ranked : Ranked u
  joined : ∀ a b, Joined calls a b → u.root a = u.root b
  connected : ∀ x y, x < n → y < n → u.root x = u.root y → Relation.EqvGen (Joined calls) x y

/-- Before the first call every element is alone. -/
theorem sound_singletons (n : Nat) : Sound n [] (singletons n) where
  inRange _ h := absurd h List.not_mem_nil
  forest := forest_singletons n
  size_eq := Array.size_range
  ranked := ranked_singletons n
  joined _ _ h := absurd h List.not_mem_nil
  connected x y _ _ h := by
    rw [root_singletons, root_singletons] at h
    exact h ▸ .refl x

namespace Sound

/-- Only elements of the structure are joined. -/
theorem joined_lt (h : Sound n calls u) (hab : Joined calls a b) : a < n ∧ b < n :=
  h.inRange _ hab

/-- A call in range leaves the calls in range. -/
theorem inRange_append (h : Sound n calls u) (hcall : call.InRange n) :
    ∀ c ∈ calls ++ [call], c.InRange n := by
  intro c hc
  rcases List.mem_append.1 hc with hc | hc
  · exact h.inRange c hc
  · exact List.mem_singleton.1 hc ▸ hcall

/-- Finding keeps the structure in step with the calls. -/
theorem find (h : Sound n calls u) (hx : x < n) : Sound n (calls ++ [.find x]) (u.find x).2 := by
  have hlt : x < u.parent.size := h.size_eq ▸ hx
  have hsame := h.forest.find hlt
  have hroot : ∀ y < n, (u.find x).2.root y = u.root y := fun y hy =>
    hsame.root_eq h.forest (h.size_eq ▸ hy)
  refine ⟨h.inRange_append hx, hsame.forest, hsame.size_eq.trans h.size_eq,
    (h.forest.unmoved_find hlt).ranked h.ranked, fun a b hab => ?_, fun y z hy hz heq => ?_⟩
  · have hab := joined_append_find.1 hab
    obtain ⟨ha, hb⟩ := h.joined_lt hab
    rw [hroot a ha, hroot b hb, h.joined a b hab]
  · rw [hroot y hy, hroot z hz] at heq
    exact (h.connected y z hy hz heq).mono fun a b hab => joined_append_find.2 hab

/-- Joining keeps the structure in step with the calls. -/
theorem union (h : Sound n calls u) (ha : a < n) (hb : b < n) :
    Sound n (calls ++ [.union a b]) (u.union a b) := by
  have haLt : a < u.parent.size := h.size_eq ▸ ha
  have hbLt : b < u.parent.size := h.size_eq ▸ hb
  obtain ⟨hforest, hsize, -⟩ := h.forest.union haLt hbLt
  -- One join is a list of one pair.
  have hone : u.union a b = u.unionAll [(a, b)] := rfl
  refine ⟨h.inRange_append ⟨ha, hb⟩, hforest, hsize.trans h.size_eq,
    h.ranked.union h.forest haLt hbLt, fun c d hcd => ?_, fun x y hx hy heq => ?_⟩
  · have hlt : c < n ∧ d < n := by
      rcases joined_append_union.1 hcd with hcd | ⟨rfl, rfl⟩
      · exact h.joined_lt hcd
      · exact ⟨ha, hb⟩
    rw [hone]
    refine h.forest.root_unionAll_complete (by simp [haLt, hbLt]) (h.size_eq ▸ hlt.1)
      (h.size_eq ▸ hlt.2) ?_
    rcases joined_append_union.1 hcd with hcd | ⟨rfl, rfl⟩
    · exact .inl (h.joined c d hcd)
    · exact .inr List.mem_cons_self
  · rw [hone] at heq
    have hedges : ∀ e ∈ [(a, b)], e.1 < u.parent.size ∧ e.2 < u.parent.size ∧
        Joined (calls ++ [.union a b]) e.1 e.2 := by
      intro e he
      obtain rfl := List.mem_singleton.1 he
      exact ⟨haLt, hbLt, joined_append_union.2 (.inr ⟨rfl, rfl⟩)⟩
    refine h.forest.root_unionAll_sound hedges (fun x y hx hy heq => ?_)
      (h.size_eq ▸ hx) (h.size_eq ▸ hy) heq
    rw [h.size_eq] at hx hy
    exact (h.connected x y hx hy heq).mono fun c d hcd => joined_append_union.2 (.inl hcd)

/-- Every call keeps the sets sound. -/
theorem apply (h : Sound n calls u) (hcall : call.InRange n) :
    Sound n (calls ++ [call]) (call.apply u) := by
  cases call with
  | find x => exact h.find hcall
  | union a b => exact h.union hcall.1 hcall.2

/-- Two elements have one root exactly when the calls join them. -/
theorem root_eq_iff (h : Sound n calls u) (hx : x < n) (hy : y < n) :
    u.root x = u.root y ↔ Relation.EqvGen (Joined calls) x y := by
  refine ⟨h.connected x y hx hy, fun hconnected => ?_⟩
  clear hx hy
  induction hconnected with
  | rel a b hab => exact h.joined a b hab
  | refl => rfl
  | symm _ _ _ ih => exact ih.symm
  | trans _ _ _ _ _ ih ih' => exact ih.trans ih'

end Sound

/-- After any number of calls the sets are sound. -/
theorem sound_run (hcalls : ∀ call ∈ calls, call.InRange n) :
    Sound n calls (run (singletons n) calls) := by
  induction calls using List.reverseRecOn with
  | nil => exact sound_singletons n
  | append_singleton calls call ih =>
    obtain ⟨hcalls, hcall⟩ := List.forall_mem_append.1 hcalls
    have hrun : run (singletons n) (calls ++ [call]) = call.apply (run (singletons n) calls) := by
      simp [run]
    rw [hrun]
    exact (ih hcalls).apply (hcall call (List.mem_singleton_self call))

/-! ### After all calls -/

/-- What the calls to come can rely on after the calls so far. -/
structure Correct (n : Nat) (calls : List Call) (u : UnionFind) : Prop where
  parent_size : u.parent.size = n
  rank_size : u.rank.size = n
  /-- Both loops of `find` come to an end, and with the root and the parents that `find` gives. -/
  find_ends : ∀ x < n, (∃ k < n, Climbs u.parent k x (u.find x).1) ∧
    Shortens (u.find x).1 u.parent x (u.find x).2.parent
  find_eq_iff : ∀ x < n, ∀ y < n,
    ((u.find x).1 = (u.find y).1 ↔ Relation.EqvGen (Joined calls) x y)
  /-- Shortening ways changes no root. -/
  find_find : ∀ x < n, ∀ y < n, ((u.find x).2.find y).1 = (u.find y).1
  rank_le : ∀ x < n, (u.rank.getD (u.find x).1 0).toNat ≤ Nat.log 2 (u.component (u.find x).1).card
  /-- The next rank is a byte, whatever the number of elements that a machine can hold. -/
  rank_succ : n < 2 ^ 255 → ∀ x < n,
    (u.rank.getD (u.find x).1 0 + 1).toNat = (u.rank.getD (u.find x).1 0).toNat + 1

/-- After any number of calls on elements in range, `find` ends, tells which elements the joins have
connected and changes no root, and the rank of a root is at most the logarithm of the size of its
set. -/
theorem correct_of_calls (hcalls : ∀ call ∈ calls, call.InRange n) :
    Correct n calls (run (singletons n) calls) := by
  have h := sound_run hcalls
  generalize run (singletons n) calls = u at h
  obtain rfl := h.size_eq
  have hpow : ∀ x < u.parent.size,
      2 ^ (u.rank.getD (u.find x).1 0).toNat ≤ (u.component (u.find x).1).card := fun x hx =>
    h.ranked.two_pow_le _ (h.forest.root_lt hx) (h.forest.root_root hx)
  refine ⟨rfl, h.ranked.size_eq, fun x hx => h.forest.find_ends hx,
    fun x hx y hy => h.root_eq_iff hx hy, fun x hx y hy => (h.forest.find hx).root_eq h.forest hy,
    fun x hx => Nat.le_log_of_pow_le Nat.one_lt_two (hpow x hx), fun hn x hx => ?_⟩
  -- A tree has at most as many elements as there are, so its rank fits in a byte and one more.
  have hcard : (u.component (u.find x).1).card ≤ u.parent.size :=
    (Finset.card_filter_le _ _).trans_eq (Finset.card_range _)
  have hrank : (u.rank.getD (u.find x).1 0).toNat < 255 :=
    (Nat.pow_lt_pow_iff_right Nat.one_lt_two).1 ((hpow x hx).trans_lt (hcard.trans_lt hn))
  rw [UInt8.toNat_add]
  exact Nat.mod_eq_of_lt (Nat.succ_lt_succ hrank)

/-- Two pairs are joined and then, by elements that are no roots, the two pairs. -/
theorem correct_of_calls_fourJoined :
    let calls : List Call := [.union 0 1, .union 2 3, .find 3, .union 3 1, .find 1]
    (∀ call ∈ calls, call.InRange 5) ∧ Correct 5 calls (run (singletons 5) calls) := by
  intro calls
  have hcalls : ∀ call ∈ calls, call.InRange 5 := by decide
  exact ⟨hcalls, correct_of_calls hcalls⟩

end Relabel.UnionFind
