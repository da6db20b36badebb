import Mathlib.Data.Fintype.Card
import Mathlib.Logic.Relation
import Relabel.Graph.UnionFind

/-!
# Disjoint sets are the classes of what was joined

A forest is an array of parents in which every element climbs to a root. Ranks only decide which
root is hung below the other, so which elements have one root does not depend on them. Pointing an element at its own
root changes no root, and hanging one root below another joins their two trees and no others.

## Main results

- `UnionFind.Forest.climbs_root`: the bounded search for a root finds it.
- `UnionFind.Forest.root_union`: the root of each element after two sets are joined.
- `UnionFind.root_unionAll_iff`: after any number of joins two elements have one root iff they are
  connected by the pairs joined.
-/

namespace Relabel.UnionFind

/-! ### Climbing -/

/-- From `x` the root `r` is reached in `k` steps. -/
inductive Climbs (parent : Array Nat) : Nat → Nat → Nat → Prop
  | root {r : Nat} : parent.getD r r = r → Climbs parent 0 r r
  | step {k x r : Nat} : parent.getD x x ≠ x → Climbs parent k (parent.getD x x) r →
    Climbs parent (k + 1) x r

variable {parent parent' : Array Nat} {k k' x y r r' n : Nat}

/-- A climb ends at a root. -/
theorem Climbs.isRoot (h : Climbs parent k x r) : parent.getD r r = r := by
  induction h with
  | root hr => exact hr
  | step _ _ ih => exact ih

/-- The way to the root is unique. -/
theorem Climbs.unique (h : Climbs parent k x r) (h' : Climbs parent k' x r') : k = k' ∧ r = r' := by
  induction h generalizing k' with
  | root hr =>
    cases h' with
    | root => exact ⟨rfl, rfl⟩
    | step hne => exact absurd hr hne
  | step hne _ ih =>
    cases h' with
    | root hr => exact absurd hr hne
    | step _ h' =>
      obtain ⟨rfl, rfl⟩ := ih h'
      exact ⟨rfl, rfl⟩

/-- Enough fuel takes the walk to the root. -/
theorem Climbs.rootFrom_eq (h : Climbs parent k x r) {fuel : Nat} (hfuel : k ≤ fuel) :
    rootFrom parent fuel x = r := by
  induction h generalizing fuel with
  | root hr =>
    cases fuel with
    | zero => rfl
    | succ fuel =>
      unfold rootFrom
      exact if_pos hr
  | step hne _ ih =>
    cases fuel with
    | zero => exact absurd hfuel (Nat.not_succ_le_zero _)
    | succ fuel =>
      unfold rootFrom
      rw [if_neg hne]
      exact ih (Nat.le_of_succ_le_succ hfuel)

/-- Parents are elements, and every element climbs to a root. -/
structure Forest (parent : Array Nat) : Prop where
  parent_lt : ∀ x, x < parent.size → parent.getD x x < parent.size
  climbs : ∀ x, x < parent.size → ∃ k r, Climbs parent k x r

namespace Forest

/-- The root of an element is an element. -/
theorem climbs_lt (h : Forest parent) (hx : x < parent.size) (hclimb : Climbs parent k x r) :
    r < parent.size := by
  induction hclimb with
  | root => exact hx
  | step _ _ ih => exact ih (h.parent_lt _ hx)

/-- On the way to a root every number of steps below the whole is left at some element. -/
theorem exists_climbs (h : Forest parent) (hx : x < parent.size) (hclimb : Climbs parent k x r)
    {j : Nat} (hj : j ≤ k) : ∃ y, y < parent.size ∧ Climbs parent j y r := by
  induction hclimb with
  | root hr =>
    obtain rfl := Nat.le_zero.1 hj
    exact ⟨_, hx, .root hr⟩
  | @step k x r hne hclimb ih =>
    by_cases hjk : j = k + 1
    · subst hjk
      exact ⟨x, hx, .step hne hclimb⟩
    · exact ih (h.parent_lt _ hx) (by omega)

/-- The way to a root has fewer steps than there are elements: elements on it differ in the number
of steps that are left. -/
theorem steps_lt (h : Forest parent) (hx : x < parent.size) (hclimb : Climbs parent k x r) :
    k < parent.size := by
  have hat : ∀ j : Fin (k + 1), ∃ y : Fin parent.size, Climbs parent j.val y.val r := by
    intro j
    obtain ⟨y, hy, hclimb'⟩ := h.exists_climbs hx hclimb (Nat.le_of_lt_succ j.isLt)
    exact ⟨⟨y, hy⟩, hclimb'⟩
  -- Each number of steps has an element of its own, so there are no more of them than elements.
  choose f hf using hat
  have hinjective : Function.Injective f := by
    intro i j hij
    have hi := hf i
    rw [hij] at hi
    exact Fin.ext (hi.unique (hf j)).1
  have hcard := Fintype.card_le_of_injective f hinjective
  simp only [Fintype.card_fin] at hcard
  omega

/-- The search for a root finds it. -/
theorem climbs_root {u : UnionFind} (h : Forest u.parent) (hx : x < u.parent.size) :
    ∃ k, Climbs u.parent k x (u.root x) := by
  obtain ⟨k, r, hclimb⟩ := h.climbs x hx
  have hroot : u.root x = r := hclimb.rootFrom_eq (Nat.le_of_lt (h.steps_lt hx hclimb))
  exact ⟨k, hroot ▸ hclimb⟩

theorem root_eq {u : UnionFind} (h : Forest u.parent) (hx : x < u.parent.size)
    (hclimb : Climbs u.parent k x r) : u.root x = r :=
  hclimb.rootFrom_eq (Nat.le_of_lt (h.steps_lt hx hclimb))

/-- The root of an element is below the number of elements. -/
theorem root_lt {u : UnionFind} (h : Forest u.parent) (hx : x < u.parent.size) :
    u.root x < u.parent.size := by
  obtain ⟨k, hclimb⟩ := h.climbs_root hx
  exact h.climbs_lt hx hclimb

end Forest

/-! ### One new parent -/

/-- The entries after one of them is written. -/
theorem getD_setIfInBounds (hx : x < parent.size) (y z : Nat) :
    (parent.setIfInBounds x r).getD y z = if x = y then r else parent.getD y z := by
  simp only [Array.getD_eq_getD_getElem?, Array.getElem?_setIfInBounds, hx, if_true]
  split <;> rfl

/-- Pointing an element at its own root changes no root. -/
theorem Climbs.shorten (hx : x < parent.size) (hxr : x ≠ r) (hclimb : Climbs parent k x r)
    {j s : Nat} (h : Climbs parent j y s) : ∃ j', Climbs (parent.setIfInBounds x r) j' y s := by
  have hr : Climbs (parent.setIfInBounds x r) 0 r r := by
    refine .root ?_
    rw [getD_setIfInBounds hx, if_neg hxr]
    exact hclimb.isRoot
  induction h with
  | @root s hs =>
    refine ⟨0, .root ?_⟩
    rw [getD_setIfInBounds hx]
    split
    · next hxs =>
      -- `x` is no root, because it climbs to another one.
      subst hxs
      exact absurd (hclimb.unique (.root hs)).2.symm hxr
    · exact hs
  | @step j y s hne hstep ih =>
    by_cases hxy : x = y
    -- From `x` itself the root is now one step away.
    · subst hxy
      obtain ⟨-, rfl⟩ := hclimb.unique (.step hne hstep)
      refine ⟨1, .step ?_ ?_⟩
      · rw [getD_setIfInBounds hx, if_pos rfl]
        exact hxr.symm
      · rw [getD_setIfInBounds hx, if_pos rfl]
        exact hr
    · obtain ⟨j', hclimb'⟩ := ih
      have hy : (parent.setIfInBounds x r).getD y y = parent.getD y y := by
        rw [getD_setIfInBounds hx, if_neg hxy]
      exact ⟨j' + 1, .step (by rwa [hy]) (by rwa [hy])⟩

/-- Hanging a root below another joins their trees. -/
theorem Climbs.link (hx : x < parent.size) (hxr : x ≠ r) (hxroot : parent.getD x x = x)
    (hrroot : parent.getD r r = r) {j s : Nat} (h : Climbs parent j y s) :
    ∃ j', Climbs (parent.setIfInBounds x r) j' y (if s = x then r else s) := by
  have hr : Climbs (parent.setIfInBounds x r) 0 r r := by
    refine .root ?_
    rw [getD_setIfInBounds hx, if_neg hxr]
    exact hrroot
  induction h with
  | @root s hs =>
    by_cases hsx : s = x
    · subst hsx
      have hparent : (parent.setIfInBounds s r).getD s s = r := by
        rw [getD_setIfInBounds hx, if_pos rfl]
      rw [if_pos rfl]
      exact ⟨1, .step (by rw [hparent]; exact hxr.symm) (by rw [hparent]; exact hr)⟩
    · rw [if_neg hsx]
      refine ⟨0, .root ?_⟩
      rw [getD_setIfInBounds hx, if_neg (Ne.symm hsx)]
      exact hs
  | @step j y s hne hstep ih =>
    obtain ⟨j', hclimb'⟩ := ih
    -- An element with a parent is not the root that gets one.
    have hxy : x ≠ y := fun hxy => hne (hxy ▸ hxroot)
    have hy : (parent.setIfInBounds x r).getD y y = parent.getD y y := by
      rw [getD_setIfInBounds hx, if_neg hxy]
    exact ⟨j' + 1, .step (by rwa [hy]) (by rwa [hy])⟩

/-- A new parent that is an element keeps all parents elements. -/
private theorem parent_lt_setIfInBounds (h : Forest parent) (hr : r < parent.size)
    (hx : x < parent.size) (y : Nat) (hy : y < (parent.setIfInBounds x r).size) :
    (parent.setIfInBounds x r).getD y y < (parent.setIfInBounds x r).size := by
  rw [Array.size_setIfInBounds] at hy ⊢
  rw [getD_setIfInBounds hx]
  by_cases hxy : x = y
  · rwa [if_pos hxy]
  · rw [if_neg hxy]
    exact h.parent_lt y hy

/-- Pointing an element at its root keeps the forest. -/
theorem Forest.shorten (h : Forest parent) (hx : x < parent.size) (hxr : x ≠ r)
    (hclimb : Climbs parent k x r) : Forest (parent.setIfInBounds x r) where
  parent_lt := parent_lt_setIfInBounds h (h.climbs_lt hx hclimb) hx
  climbs := by
    intro y hy
    rw [Array.size_setIfInBounds] at hy
    obtain ⟨j, s, hy⟩ := h.climbs y hy
    obtain ⟨j', hy'⟩ := hclimb.shorten hx hxr hy
    exact ⟨j', s, hy'⟩

/-- Pointing one root at another keeps the forest. -/
theorem Forest.link (h : Forest parent) (hx : x < parent.size) (hr : r < parent.size) (hxr : x ≠ r)
    (hxroot : parent.getD x x = x) (hrroot : parent.getD r r = r) :
    Forest (parent.setIfInBounds x r) where
  parent_lt := parent_lt_setIfInBounds h hr hx
  climbs := by
    intro y hy
    rw [Array.size_setIfInBounds] at hy
    obtain ⟨j, s, hy⟩ := h.climbs y hy
    obtain ⟨j', hy'⟩ := Climbs.link hx hxr hxroot hrroot hy
    exact ⟨j', _, hy'⟩

/-! ### Shorter ways -/

/-- A forest with the same elements and the same roots. -/
structure SameRoots (parent parent' : Array Nat) : Prop where
  forest : Forest parent'
  size_eq : parent'.size = parent.size
  climbs : ∀ {k x r}, Climbs parent k x r → ∃ k', Climbs parent' k' x r

theorem SameRoots.refl (h : Forest parent) : SameRoots parent parent :=
  ⟨h, rfl, fun hclimb => ⟨_, hclimb⟩⟩

/-- The same roots from one forest to the next. -/
theorem SameRoots.trans {parent'' : Array Nat} (h : SameRoots parent parent')
    (h' : SameRoots parent' parent'') : SameRoots parent parent'' where
  forest := h'.forest
  size_eq := h'.size_eq.trans h.size_eq
  climbs hclimb := by
    obtain ⟨k', hclimb'⟩ := h.climbs hclimb
    exact h'.climbs hclimb'

/-- Shortening the way from an element to its root changes no root. -/
theorem Forest.compressFrom (h : Forest parent) (hx : x < parent.size)
    (hclimb : Climbs parent k x r) (fuel : Nat) :
    SameRoots parent (compressFrom r fuel parent x) := by
  induction fuel generalizing parent x k with
  | zero => exact .refl h
  | succ fuel ih =>
    -- Whatever stands for a missing parent, an element has one.
    have hparent : parent.getD x r = parent.getD x x := by
      simp [Array.getD_eq_getD_getElem?, hx]
    unfold UnionFind.compressFrom
    dsimp only
    rw [hparent]
    by_cases hnext : parent.getD x x = r
    · rw [if_pos hnext]
      exact .refl h
    · rw [if_neg hnext]
      have hxr : x ≠ r := fun hxr => hnext (by rw [hxr]; exact hclimb.isRoot)
      cases hclimb with
      | root hr => exact absurd rfl hxr
      | step hne hstep =>
        have hone : SameRoots parent (parent.setIfInBounds x r) :=
          ⟨h.shorten hx hxr (.step hne hstep), Array.size_setIfInBounds,
            (Climbs.step hne hstep).shorten hx hxr⟩
        -- The old parent of `x` still climbs to the same root, so its way can be shortened next.
        obtain ⟨k', hstep'⟩ := hone.climbs hstep
        refine hone.trans (ih hone.forest ?_ hstep')
        rw [hone.size_eq]
        exact h.parent_lt x hx

/-- Finding changes no root. -/
theorem Forest.find {u : UnionFind} (h : Forest u.parent) (hx : x < u.parent.size) :
    SameRoots u.parent (u.find x).2.parent := by
  obtain ⟨k, hclimb⟩ := h.climbs_root hx
  exact h.compressFrom hx hclimb _

/-- Where the roots are the same, so are the roots of the sets. -/
theorem SameRoots.root_eq {u v : UnionFind} (h : Forest u.parent)
    (hsame : SameRoots u.parent v.parent) (hx : x < u.parent.size) : v.root x = u.root x := by
  obtain ⟨k, hclimb⟩ := h.climbs_root hx
  obtain ⟨k', hclimb'⟩ := hsame.climbs hclimb
  exact hsame.forest.root_eq (hsame.size_eq ▸ hx) hclimb'

/-! ### Joining two sets -/

/-- Hanging the root `l` below the root `w`, in a forest with the roots of another. -/
private theorem root_link {u v : UnionFind} {l w : Nat} (h : Forest u.parent)
    (hsame : SameRoots u.parent v.parent) (hl : l < u.parent.size) (hw : w < u.parent.size)
    (hne : l ≠ w) (hlroot : Climbs u.parent 0 l l) (hwroot : Climbs u.parent 0 w w)
    (rank : Array UInt8) :
    Forest (v.parent.setIfInBounds l w) ∧
      ∀ x, x < u.parent.size → root { parent := v.parent.setIfInBounds l w, rank } x =
        if u.root x = l then w else u.root x := by
  -- Both forests have the same roots, so the climbs of the one are climbs of the other.
  obtain ⟨_, hlroot'⟩ := hsame.climbs hlroot
  obtain ⟨_, hwroot'⟩ := hsame.climbs hwroot
  have hl' : l < v.parent.size := hsame.size_eq ▸ hl
  have hw' : w < v.parent.size := hsame.size_eq ▸ hw
  have hforest := hsame.forest.link hl' hw' hne hlroot'.isRoot hwroot'.isRoot
  refine ⟨hforest, fun x hx => ?_⟩
  obtain ⟨k, hclimb⟩ := h.climbs_root hx
  obtain ⟨k', hclimb'⟩ := hsame.climbs hclimb
  -- In the linked forest a climb goes on from `l` to `w`, and ends as before at other roots.
  obtain ⟨j, hlinked⟩ := Climbs.link hl' hne hlroot'.isRoot hwroot'.isRoot hclimb'
  refine Forest.root_eq (u := ⟨_, rank⟩) hforest ?_ hlinked
  rw [Array.size_setIfInBounds, hsame.size_eq]
  exact hx

/-- The ranks once the root `l` hangs below the root `w`: only between two roots of one rank does the
one that stays a root get the next rank. -/
inductive Raised (rank : Array UInt8) (l w : Nat) : Array UInt8 → Prop
  | same : l = w → Raised rank l w rank
  | lower : rank.getD l 0 < rank.getD w 0 → Raised rank l w rank
  | equal : l ≠ w → rank.getD l 0 = rank.getD w 0 →
    Raised rank l w (rank.setIfInBounds w (rank.getD w 0 + 1))

/-- After two sets are joined, the elements of one have the root of the other. -/
theorem Forest.union {u : UnionFind} {a b : Nat} (h : Forest u.parent) (ha : a < u.parent.size)
    (hb : b < u.parent.size) :
    Forest (u.union a b).parent ∧ (u.union a b).parent.size = u.parent.size ∧
      ∃ l w, (l = u.root a ∧ w = u.root b ∨ l = u.root b ∧ w = u.root a) ∧
        (∀ x, x < u.parent.size →
          (u.union a b).root x = if u.root x = l then w else u.root x) ∧
        Raised u.rank l w (u.union a b).rank := by
  -- Both searches for roots shorten ways only.
  have hfindA := h.find ha
  have hb₁ : b < (u.find a).2.parent.size := hfindA.size_eq ▸ hb
  have hfindB := hfindA.forest.find hb₁
  have hsame := hfindA.trans hfindB
  have hrootB : (u.find a).2.root b = u.root b := hfindA.root_eq h hb
  obtain ⟨_, hclimbA⟩ := h.climbs_root ha
  obtain ⟨_, hclimbB⟩ := h.climbs_root hb
  have hrootA₀ := Climbs.root hclimbA.isRoot
  have hrootB₀ := Climbs.root hclimbB.isRoot
  have haLt := h.root_lt ha
  have hbLt := h.root_lt hb
  -- All three links hang one of the two roots below the other.
  have hunion : u.union a b =
      let u₂ := ((u.find a).2.find b).2
      if u.root a = u.root b then u₂
      else if u.rank.getD (u.root a) 0 < u.rank.getD (u.root b) 0 then
        { u₂ with parent := u₂.parent.setIfInBounds (u.root a) (u.root b) }
      else if u.rank.getD (u.root b) 0 < u.rank.getD (u.root a) 0 then
        { u₂ with parent := u₂.parent.setIfInBounds (u.root b) (u.root a) }
      else
        { parent := u₂.parent.setIfInBounds (u.root b) (u.root a)
          rank := u.rank.setIfInBounds (u.root a) (u.rank.getD (u.root a) 0 + 1) } := by
    rw [← hrootB]
    rfl
  rw [hunion]
  dsimp only
  split
  · next heq =>
    refine ⟨hsame.forest, hsame.size_eq, u.root a, u.root b, .inl ⟨rfl, rfl⟩, fun x hx => ?_,
      .same heq⟩
    rw [hsame.root_eq h hx]
    split
    · next hx => rw [hx, heq]
    · rfl
  · next hne =>
    have hsize : ∀ l w, (((u.find a).2.find b).2.parent.setIfInBounds l w).size = u.parent.size :=
      fun l w => by rw [Array.size_setIfInBounds, hsame.size_eq]
    split
    · next hlower =>
      obtain ⟨hforest, hroots⟩ := root_link h hsame haLt hbLt hne hrootA₀ hrootB₀ _
      exact ⟨hforest, hsize _ _, _, _, .inl ⟨rfl, rfl⟩, hroots, .lower hlower⟩
    · next hnotLower =>
      have hlink := root_link h hsame hbLt haLt (Ne.symm hne) hrootB₀ hrootA₀
      split
      · next hlower =>
        exact ⟨(hlink #[]).1, hsize _ _, _, _, .inr ⟨rfl, rfl⟩, (hlink _).2, .lower hlower⟩
      · next hnotHigher =>
        have hequal := UInt8.le_antisymm (UInt8.not_lt.1 hnotLower) (UInt8.not_lt.1 hnotHigher)
        exact ⟨(hlink #[]).1, hsize _ _, _, _, .inr ⟨rfl, rfl⟩, (hlink _).2,
          .equal (Ne.symm hne) hequal⟩

/-- Two elements have one root after two sets are joined iff they had one before, or they are in the
two sets. -/
theorem Forest.root_union {u : UnionFind} {a b : Nat} (h : Forest u.parent)
    (ha : a < u.parent.size) (hb : b < u.parent.size) (hx : x < u.parent.size)
    (hy : y < u.parent.size) :
    (u.union a b).root x = (u.union a b).root y ↔
      u.root x = u.root y ∨ u.root x = u.root a ∧ u.root y = u.root b ∨
        u.root x = u.root b ∧ u.root y = u.root a := by
  obtain ⟨-, -, l, w, hlw, hroot, -⟩ := h.union ha hb
  rw [hroot x hx, hroot y hy]
  -- Which of the two roots stays does not matter for which elements share one.
  rcases hlw with ⟨rfl, rfl⟩ | ⟨rfl, rfl⟩ <;> split <;> split <;> grind

/-! ### Joining many -/

/-- What is related by one root after many joins is related already, if one root and a pair to be
joined imply this. -/
theorem Forest.root_unionAll_sound {u : UnionFind} (h : Forest u.parent)
    {edges : List (Nat × Nat)} {R : Nat → Nat → Prop}
    (hedges : ∀ e ∈ edges, e.1 < u.parent.size ∧ e.2 < u.parent.size ∧ R e.1 e.2)
    (hu : ∀ x y, x < u.parent.size → y < u.parent.size → u.root x = u.root y →
      Relation.EqvGen R x y)
    (hx : x < u.parent.size) (hy : y < u.parent.size)
    (hroot : (u.unionAll edges).root x = (u.unionAll edges).root y) : Relation.EqvGen R x y := by
  induction edges generalizing u with
  | nil => exact hu x y hx hy hroot
  | cons e rest ih =>
    obtain ⟨ha, hb, hR⟩ := hedges e List.mem_cons_self
    obtain ⟨hforest, hsize, -⟩ := h.union ha hb
    refine ih hforest ?_ ?_ (hsize ▸ hx) (hsize ▸ hy) hroot
    · rw [hsize]
      exact fun e' he' => hedges e' (List.mem_cons_of_mem _ he')
    · rw [hsize]
      intro x y hx hy hroot
      -- One root before the edge already, or the edge joins the two, in one order or the other.
      rcases (h.root_union ha hb hx hy).1 hroot with hxy | ⟨hxa, hyb⟩ | ⟨hxb, hya⟩
      · exact hu x y hx hy hxy
      · exact .trans _ _ _ (hu _ _ hx ha hxa) (.trans _ _ _ (.rel _ _ hR)
          (.symm _ _ (hu _ _ hy hb hyb)))
      · exact .trans _ _ _ (hu _ _ hx hb hxb) (.trans _ _ _ (.symm _ _ (.rel _ _ hR))
          (.symm _ _ (hu _ _ hy ha hya)))

/-- One root stays one, and each pair that is joined gets one. -/
theorem Forest.root_unionAll_complete {u : UnionFind} (h : Forest u.parent)
    {edges : List (Nat × Nat)}
    (hedges : ∀ e ∈ edges, e.1 < u.parent.size ∧ e.2 < u.parent.size)
    (hx : x < u.parent.size) (hy : y < u.parent.size)
    (hxy : u.root x = u.root y ∨ (x, y) ∈ edges) :
    (u.unionAll edges).root x = (u.unionAll edges).root y := by
  induction edges generalizing u with
  | nil =>
    rcases hxy with hroot | hmem
    · exact hroot
    · cases hmem
  | cons e rest ih =>
    obtain ⟨ha, hb⟩ := hedges e List.mem_cons_self
    obtain ⟨hforest, hsize, -⟩ := h.union ha hb
    refine ih hforest ?_ (hsize ▸ hx) (hsize ▸ hy) ?_
    · rw [hsize]
      exact fun e' he' => hedges e' (List.mem_cons_of_mem _ he')
    · rcases hxy with hroot | hmem
      · exact .inl ((h.root_union ha hb hx hy).2 (.inl hroot))
      · rcases List.mem_cons.1 hmem with rfl | hmem
        -- The edge at the head joins its two ends, and later ones keep them together.
        · exact .inl ((h.root_union ha hb hx hy).2 (.inr (.inl ⟨rfl, rfl⟩)))
        · exact .inr hmem

/-- Single elements are a forest of roots. -/
theorem forest_singletons (n : Nat) : Forest (singletons n).parent where
  parent_lt x hx := by
    simp only [singletons, Array.size_range] at hx ⊢
    simp [Array.getD_eq_getD_getElem?, hx]
  climbs x hx := by
    simp only [singletons, Array.size_range] at hx ⊢
    exact ⟨0, x, .root (by simp [Array.getD_eq_getD_getElem?, hx])⟩

/-- After any number of joins two elements have one root iff the pairs joined connect them. -/
theorem root_unionAll_iff {edges : List (Nat × Nat)} (hedges : ∀ e ∈ edges, e.1 < n ∧ e.2 < n)
    (hx : x < n) (hy : y < n) :
    ((singletons n).unionAll edges).root x = ((singletons n).unionAll edges).root y ↔
      Relation.EqvGen (fun a b => (a, b) ∈ edges) x y := by
  have hsize : (singletons n).parent.size = n := Array.size_range
  have hforest := forest_singletons n
  constructor
  · intro hroot
    refine hforest.root_unionAll_sound ?_ ?_ (by rwa [hsize]) (by rwa [hsize]) hroot
    · rw [hsize]
      exact fun e he => ⟨(hedges e he).1, (hedges e he).2, he⟩
    · intro x y _ _ hxy
      rw [root_singletons, root_singletons] at hxy
      exact hxy ▸ .refl x
  · intro hconnected
    -- The connection may pass elements that say nothing of `x` and `y`.
    clear hx hy
    induction hconnected with
    | rel a b hab =>
      obtain ⟨ha, hb⟩ := hedges _ hab
      exact hforest.root_unionAll_complete (by rwa [hsize]) (by rwa [hsize]) (by rwa [hsize])
        (.inr hab)
    | refl => rfl
    | symm a b _ ih => exact ih.symm
    | trans a b c _ _ ih ih' => exact ih.trans ih'

end Relabel.UnionFind
