import SegmentFlow.Editor
/-!
# What an operation does to the graph

`Step` lists, operation by operation, what may become of the graph: a refused operation and one that
does not edit leave it alone, and each of the others makes one change, under the condition that the
editor checks before. Every property that a run keeps follows from this list and an induction over
the run.
-/

namespace SegmentFlow.Editor

/-- An operation may turn the graph of an editor with that geometry into another one. -/
inductive Step (m : Geometry) (g : Graph) : Operation → Graph → Prop where
  | kept (o : Operation) : Step m g o g
  | nodeAdded {n : Node} (hnew : g.node? n.id = none) :
      Step m g (.addNode n) { g with nodes := g.nodes ++ [n] }
  | startAdded (hnew : g.node? standardStartNode.id = none) :
      Step m g .ensureStartNode { g with nodes := g.nodes ++ [standardStartNode] }
  | nodeMoved (id : String) (p : Position) :
      Step m g (.moveNode id p) (g.updateNode id fun n => { n with position := p })
  | conditionsSet (id : String) (cs : List Condition) :
      Step m g (.setConditions id cs) (g.updateNode id fun n => n.withConditions cs)
  | nodeDeleted {id : String} {n : Node} (hnode : g.node? id = some n) (hkind : n.kind ≠ .start) :
      Step m g (.deleteNode id) (g.eraseNode id)
  | edgeDrawn {c : Connection} (hpass : m.check g c = .ok ()) :
      Step m g (.connect c) { g with edges := g.edges ++ [c.toEdge g] }
  | edgeDeleted (id : String) : Step m g (.deleteEdge id) (g.eraseEdge id)

variable (e : Editor)

/-- The editor after one operation. -/
def after (o : Operation) : Editor :=
  (e.apply o).value.1

theorem graph_addNode (n : Node) :
    (e.addNode n).1.graph = e.graph
      ∨ e.graph.node? n.id = none
        ∧ (e.addNode n).1.graph = { e.graph with nodes := e.graph.nodes ++ [n] } := by
  rw [addNode]
  split
  · exact .inl rfl
  · rename_i hnew
    exact .inr ⟨Option.not_isSome_iff_eq_none.1 hnew, rfl⟩

theorem graph_changeNode (id : String) (change : Node → Node) :
    (e.changeNode id change).1.graph = e.graph
      ∨ (e.changeNode id change).1.graph = e.graph.updateNode id change := by
  rw [changeNode]
  split
  · exact .inr rfl
  · exact .inl rfl

theorem step_ensureStartNode :
    Step e.geometry e.graph .ensureStartNode e.ensureStartNode.1.graph := by
  rw [ensureStartNode]
  split
  · rcases e.graph_addNode standardStartNode with hkept | ⟨hnew, hadded⟩
    · exact hkept ▸ .kept _
    · exact hadded ▸ .startAdded hnew
  · exact .kept _

theorem step_deleteNode (id : String) :
    Step e.geometry e.graph (.deleteNode id) (e.deleteNode id).1.graph := by
  rw [deleteNode]
  split
  · exact .kept _
  · rename_i n hnode
    split
    · exact .kept _
    · rename_i hkind
      exact .nodeDeleted hnode hkind

theorem step_connect (c : Connection) :
    Step e.geometry e.graph (.connect c) (e.connect c).value.1.graph := by
  rw [connect, Geometry.checkTraced]
  cases hcheck : e.geometry.check e.graph c with
  | error r => exact .kept _
  | ok u => exact .edgeDrawn hcheck

theorem step_deleteEdge (id : String) :
    Step e.geometry e.graph (.deleteEdge id) (e.deleteEdge id).1.graph := by
  rw [deleteEdge]
  split
  · exact .kept _
  · exact .edgeDeleted id

theorem step_after (o : Operation) : Step e.geometry e.graph o (e.after o).graph := by
  cases o with
  | addNode n =>
      rcases e.graph_addNode n with hkept | ⟨hnew, hadded⟩
      · exact (show (e.after (.addNode n)).graph = e.graph from hkept) ▸ .kept _
      · exact (show (e.after (.addNode n)).graph = _ from hadded) ▸ .nodeAdded hnew
  | moveNode id p =>
      rcases e.graph_changeNode id fun n => { n with position := p } with hkept | hmoved
      · exact (show (e.after (.moveNode id p)).graph = e.graph from hkept) ▸ .kept _
      · exact (show (e.after (.moveNode id p)).graph = _ from hmoved) ▸ .nodeMoved id p
  | setConditions id cs =>
      rcases e.graph_changeNode id fun n => n.withConditions cs with hkept | hset
      · exact (show (e.after (.setConditions id cs)).graph = e.graph from hkept) ▸ .kept _
      · exact (show (e.after (.setConditions id cs)).graph = _ from hset) ▸ .conditionsSet id cs
  | deleteNode id => exact e.step_deleteNode id
  | connect c => exact e.step_connect c
  | deleteEdge id => exact e.step_deleteEdge id
  | ensureStartNode => exact e.step_ensureStartNode
  | selectNode | selectEdge | validate | compile | dismissNotice | markSaved => exact .kept _

/-! ### The settings

An edge is checked with the geometry and a workflow compiled with the assembler that the editor was
opened with. -/

def settings : Geometry × Compile.Assembler :=
  (e.geometry, e.assembler)

theorem settings_addNode (n : Node) : (e.addNode n).1.settings = e.settings := by
  rw [addNode]
  split <;> rfl

theorem settings_changeNode (id : String) (change : Node → Node) :
    (e.changeNode id change).1.settings = e.settings := by
  rw [changeNode]
  split <;> rfl

theorem settings_ensureStartNode : e.ensureStartNode.1.settings = e.settings := by
  rw [ensureStartNode]
  split
  · exact e.settings_addNode standardStartNode
  · rfl

theorem settings_deleteNode (id : String) : (e.deleteNode id).1.settings = e.settings := by
  rw [deleteNode]
  split
  · rfl
  · split <;> rfl

theorem settings_connect (c : Connection) : (e.connect c).value.1.settings = e.settings := by
  rw [connect]
  dsimp only
  split <;> rfl

theorem settings_deleteEdge (id : String) : (e.deleteEdge id).1.settings = e.settings := by
  rw [deleteEdge]
  split <;> rfl

theorem settings_after (o : Operation) : (e.after o).settings = e.settings := by
  cases o with
  | addNode n => exact e.settings_addNode n
  | moveNode id p => exact e.settings_changeNode id _
  | setConditions id cs => exact e.settings_changeNode id _
  | deleteNode id => exact e.settings_deleteNode id
  | connect c => exact e.settings_connect c
  | deleteEdge id => exact e.settings_deleteEdge id
  | ensureStartNode => exact e.settings_ensureStartNode
  | selectNode | selectEdge | validate | compile | dismissNotice | markSaved => rfl

theorem geometry_after (o : Operation) : (e.after o).geometry = e.geometry :=
  congrArg Prod.fst (e.settings_after o)

theorem assembler_after (o : Operation) : (e.after o).assembler = e.assembler :=
  congrArg Prod.snd (e.settings_after o)

/-! ### Runs -/

/-- What one operation keeps, a run keeps. -/
theorem run_induction {P : Editor → Prop} (hstep : ∀ e o, P e → P (e.after o)) (he : P e)
    (os : List Operation) : P (e.run os) := by
  induction os generalizing e with
  | nil => exact he
  | cons o os ih => exact ih (e.after o) (hstep e o he)

end SegmentFlow.Editor
