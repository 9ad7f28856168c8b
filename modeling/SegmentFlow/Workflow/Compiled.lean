import SegmentFlow.Compile.Assembly
import SegmentFlow.Workflow.Basic
/-!
# Compiled workflows

Each condition node of a workflow has a query document. The documents are kept by node id; of two
nodes with one id, the later one counts.
-/

namespace SegmentFlow.Compile

open Query (Document)

/-- Query documents by the ids of their nodes. -/
abbrev Queries := List (String × Document)

def queriesToJson (queries : Queries) : Json :=
  .obj (queries.map fun (id, d) => (id, d.toJson))

namespace Assembler

/-- Adds the document of a node, if it is a condition node. -/
def addQuery (a : Assembler) (queries : Traced Queries) (n : Node) : Traced Queries :=
  if n.kind = .condition then
    let d := a.assemble n.data.conditions
    ⟨Dictionary.insert n.id d.value queries.value, queries.events ++ d.events⟩
  else queries

/-- The documents of all condition nodes. -/
def queries (a : Assembler) (g : Graph) : Traced Queries :=
  g.nodes.foldl a.addQuery ⟨[], []⟩

end Assembler

/-- A workflow with its queries as one object. -/
def compiledToJson (w : Workflow) (queries : Queries) : Json :=
  .obj [("workflow", w.toTree), ("queries", queriesToJson queries)]

end SegmentFlow.Compile
