/-!
# Union and find

Disjoint sets as trees: every element points at its parent and a root at itself. `union` hangs the
root of lower rank below the other, and `find` points all elements on its way at the root.
-/

namespace Relabel

/-- Disjoint sets of the numbers below a bound. -/
structure UnionFind where
  parent : Array Nat
  /-- A bound for the height of the tree below a root. -/
  rank : Array UInt8
  deriving Repr

namespace UnionFind

/-- Every number alone. -/
def singletons (n : Nat) : UnionFind where
  parent := Array.range n
  rank := Array.replicate n 0

/-- Follows parents to a root. A path has no more steps than there are elements. -/
def rootFrom (parent : Array Nat) : Nat → Nat → Nat
  | 0, x => x
  | fuel + 1, x =>
    let p := parent.getD x x
    if p = x then x else rootFrom parent fuel p

/-- The root above an element. -/
def root (u : UnionFind) (x : Nat) : Nat :=
  rootFrom u.parent u.parent.size x

/-- Alone in its set, every element is its own root. -/
@[simp]
theorem root_singletons (n x : Nat) : (singletons n).root x = x := by
  simp only [root, singletons, Array.size_range]
  cases n with
  | zero => rfl
  | succ n =>
    have h : (Array.range (n + 1)).getD x x = x := by
      simp [Array.getD, Array.getElem_range]
    simp [rootFrom, h]

/-- Points the elements from `x` up to the root at the root. -/
def compressFrom (root : Nat) : Nat → Array Nat → Nat → Array Nat
  | 0, parent, _ => parent
  | fuel + 1, parent, x =>
    let next := parent.getD x root
    if next = root then parent else compressFrom root fuel (parent.setIfInBounds x root) next

/-- The root above an element, and the sets with a shorter path to it. -/
def find (u : UnionFind) (x : Nat) : Nat × UnionFind :=
  let r := u.root x
  (r, { u with parent := compressFrom r u.parent.size u.parent x })

/-- Joins the sets of two elements. -/
def union (u : UnionFind) (a b : Nat) : UnionFind :=
  let (ra, u) := u.find a
  let (rb, u) := u.find b
  if ra = rb then u
  else
    let rankA := u.rank.getD ra 0
    let rankB := u.rank.getD rb 0
    if rankA < rankB then { u with parent := u.parent.setIfInBounds ra rb }
    else if rankB < rankA then { u with parent := u.parent.setIfInBounds rb ra }
    -- With equal ranks, the joined tree may be higher than both.
    else { parent := u.parent.setIfInBounds rb ra, rank := u.rank.setIfInBounds ra (rankA + 1) }

/-- Joins the ends of every edge. -/
def unionAll (u : UnionFind) (edges : List (Nat × Nat)) : UnionFind :=
  edges.foldl (fun u (a, b) => u.union a b) u

end UnionFind

end Relabel
