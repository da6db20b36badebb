import Relabel.Proofs.Decisions.Steps
import Relabel.Proofs.Graph.Members

/-!
# What decisions answer

The steps that decide on names change names and access, never the graph they decide on. So a name is
asked for in the graph of the run, and a reference is answered as the member it leads to.

## Main results

- `Decisions.graph_ofGraph`: decisions are about the graph they were made for.
- `Decisions.mapMember_congr`: two ways to refer to one member get one answer.
-/

namespace Relabel

namespace Decisions

/-! ### The graph -/

/-- Decisions are about the graph they were made for. -/
theorem graph_ofGraph {graph : Graph} {mappings : Mapping.Renames} {options : Options}
    {r : Decisions} {warnings : List Warning}
    (h : ofGraph graph mappings options = .ok (r, warnings)) : r.graph = graph :=
  (retreats_of_ofGraph h).graph

/-! ### Answers -/

/-- Keys with one name that lead to one member get one answer. -/
theorem mapMember_congr {r : Decisions} {kind : MemberKind} {key key' : MemberKey}
    {id : MemberPlace} (h : r.graph.lookUpMember kind key = some id)
    (h' : r.graph.lookUpMember kind key' = some id) (hname : key.name = key'.name) :
    r.toRenaming.mapMember kind key = r.toRenaming.mapMember kind key' := by
  have hlookUp : r.lookUp kind key = r.lookUp kind key' := by simp only [lookUp, h, h']
  cases kind with
  | field => exact hlookUp
  | method =>
    -- A method is asked for its name before it is looked up: initializers keep theirs.
    show r.mapMethod key = r.mapMethod key'
    simp only [mapMethod, hname, hlookUp]

end Decisions

end Relabel
