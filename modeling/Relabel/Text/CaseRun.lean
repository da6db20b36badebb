/-!
# Runs of case pairs

Case mappings as runs of characters at a constant distance from their images.
-/

namespace Relabel.Text

/-- The characters `first`, `first + step`, … `last`; the image of the first is `image` and the
others follow at the same distance. -/
structure CaseRun where
  first : Nat
  last : Nat
  step : Nat
  image : Nat

/-- The image of a code point that lies on the run. -/
def CaseRun.image? (run : CaseRun) (n : Nat) : Option Nat :=
  if run.first ≤ n ∧ n ≤ run.last ∧ (n - run.first) % run.step = 0 then
    some (run.image + (n - run.first))
  else none

/-- The code points of the run with their images. -/
def CaseRun.pairs (run : CaseRun) : List (Nat × Nat) :=
  (List.range ((run.last - run.first) / run.step + 1)).map fun i =>
    (run.first + i * run.step, run.image + i * run.step)

end Relabel.Text
