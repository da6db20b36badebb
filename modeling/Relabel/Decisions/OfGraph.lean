import Relabel.Decisions.Clashes
import Relabel.Decisions.PackageAccess

/-!
# The decisions on a graph

All steps that decide on names, in order. The problems of all steps that look for clashes are
reported together; access is looked at only where there are none.
-/

namespace Relabel.Decisions

/-- Decides on the names of a class graph. -/
def ofGraph (graph : Graph) (mappings : Mapping.Renames) (options : Options) :
    Except (List Problem) (Decisions × List Warning) :=
  let (groupProblems, d) := (Draft.start graph mappings options).takeNames options
  let (classProblems, d) := d.settleClasses options
  let (memberProblems, d) := d.settleMembers options
  match groupProblems ++ classProblems ++ memberProblems with
  | [] =>
    let d := if options.examinesAccess then d.reviewAccess options else d
    .ok (d.decisions, d.warnings)
  | problems => .error problems

end Relabel.Decisions
