import Relabel.Decisions.Draft

/-!
# Access across packages

A class or member that only its package may use can no longer be reached from a class that the new
names put into another package. Each such reference of an input is reported, and where that is asked
for and possible, its target becomes public.
-/

namespace Relabel.Draft

/-- What a reference can no longer reach. -/
inductive Breach where
  | ofClass (name : String)
  | ofMember (id : MemberPlace)
  deriving DecidableEq, Repr

/-- Whether the new names put two classes of one package into different ones. -/
def movesApart (r : Decisions) (a b : String) : Bool :=
  packageName a = packageName b && packageName (r.className a) != packageName (r.className b)

/-- What a reference of a class can no longer reach. -/
def breach? (r : Decisions) (c : ClassShape) : Reference → Option Breach
  | .ofClass name => do
    let target ← r.graph.classNamed? name
    if target.origin != .synthetic && target.access.isPackagePrivate &&
        movesApart r target.name c.name
    then some (.ofClass target.name) else none
  | .ofMember kind key => do
    let id ← r.graph.lookUpMember kind key
    -- A class always reaches its own members.
    if some id.owner != r.graph.place? c.name && (r.graph.memberAt id).access.isPackagePrivate &&
        movesApart r (r.graph.classAt id.owner).name c.name
    then some (.ofMember id) else none

/-- All breaches, each with the class that refers. -/
def breaches (r : Decisions) : List (String × Breach) :=
  (r.graph.classes.toList.filter (·.isInput)).flatMap fun c =>
    (c.references.filterMap (breach? r c)).map (c.name, ·)

/-- Reports a breach, and mends it where that is asked for and possible. -/
def noteBreach (options : Options) (d : Draft) : String × Breach → Draft
  | (referencing, .ofClass name) =>
    let fixed := options.fixPackageAccess && (d.decisions.graph.classNamed? name).any (·.isInput)
    let d := if fixed then d.publishClass name else d
    d.warn (.accessViolation referencing name none fixed)
  | (referencing, .ofMember id) =>
    let g := d.decisions.graph
    let fixed := options.fixPackageAccess && (g.classAt id.owner).isInput
    let d := if fixed then d.publishMember id else d
    d.warn (.accessViolation referencing (g.classAt id.owner).name
      (some (g.memberAt id).describe) fixed)

/-- Looks at all references of inputs. -/
def reviewAccess (d : Draft) (options : Options) : Draft :=
  (breaches d.decisions).foldl (noteBreach options) d

end Relabel.Draft
