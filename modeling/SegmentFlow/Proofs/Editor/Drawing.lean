import SegmentFlow.Proofs.Canvas.MoreEdges
import SegmentFlow.Proofs.Editor.EdgeIds
import SegmentFlow.Proofs.Editor.Steps
/-!
# Drawing an edge and taking it back

A connection that is accepted puts one edge behind the others, under an id that none of them has.
Deleting goes by the id and takes out the first edge that carries it, so right after the connection it
finds the new edge and no other, however often the ids before it repeat.
-/

namespace SegmentFlow

namespace Graph

variable {g : Graph} {d : Edge}

/-- The graph with one more edge, behind its others. -/
def withEdge (g : Graph) (d : Edge) : Graph :=
  { g with edges := g.edges ++ [d] }

section NewId

variable (hnew : g.hasEdge d.id = false)
include hnew

theorem ids_ne_of_hasEdge : ∀ e ∈ g.edges, ¬ decide (e.id = d.id) = true := by
  rw [← Bool.not_eq_true, hasEdge, edge?, List.find?_isSome] at hnew
  exact fun e he hid => hnew ⟨e, he, hid⟩

theorem edge?_withEdge : (g.withEdge d).edge? d.id = some d := by
  rw [edge?, withEdge, List.find?_append, List.find?_eq_none.2 (ids_ne_of_hasEdge hnew),
    Option.none_or]
  exact List.find?_cons_of_pos (decide_eq_true rfl)

theorem eraseEdge_withEdge : (g.withEdge d).eraseEdge d.id = g := by
  have hlast : [d].eraseP (fun e => e.id = d.id) = [] :=
    List.eraseP_cons_of_pos (decide_eq_true rfl)
  rw [eraseEdge, withEdge]
  dsimp only
  rw [List.eraseP_append_right _ (ids_ne_of_hasEdge hnew), hlast, List.append_nil]

end NewId

end Graph

namespace Editor

variable {e : Editor} {c : Connection} {d : Edge}

theorem connect_of_ok (hdrawn : (e.connect c).value.2 = .ok d) :
    d = c.toEdge e.graph ∧ (e.connect c).value.1 = e.edited (e.graph.withEdge d) := by
  rw [connect, Geometry.checkTraced] at hdrawn ⊢
  cases hcheck : e.geometry.check e.graph c with
  | error r =>
      rw [hcheck] at hdrawn
      cases hdrawn
  | ok u =>
      rw [hcheck] at hdrawn
      obtain rfl := Except.ok.inj hdrawn
      exact ⟨rfl, rfl⟩

/-- Nothing of the edge stays behind, but that the change counts as one and a selection of its id is
given up. -/
theorem deleteEdge_connect (hdrawn : (e.connect c).value.2 = .ok d) :
    (e.connect c).value.1.deleteEdge d.id
      = ({ e with
            dirty := true
            selectedEdgeId := if e.selectedEdgeId = some d.id then none else e.selectedEdgeId },
          .ok d) := by
  obtain ⟨rfl, hafter⟩ := connect_of_ok hdrawn
  have hnew : e.graph.hasEdge (c.toEdge e.graph).id = false := e.graph.hasEdge_newEdgeId _ _ _
  have hgraph : (e.edited (e.graph.withEdge (c.toEdge e.graph))).graph
      = e.graph.withEdge (c.toEdge e.graph) := rfl
  rw [hafter, deleteEdge, hgraph, Graph.edge?_withEdge hnew]
  dsimp only
  rw [Graph.eraseEdge_withEdge hnew]
  rfl

theorem properHandle_eq (handle : Option String) :
    properHandle handle = if handle = some "" then none else handle := by
  cases handle with
  | none => rfl
  | some h => by_cases hempty : h = "" <;> simp [properHandle, hempty]

/-- An edge that was drawn and is deleted at once was the edge of the connection, with no handle where
the connection gives an empty one, and the workflow is what it was before. -/
theorem connect_taken_back (e : Editor) (c : Connection) (d : Edge)
    (hdrawn : (e.connect c).value.2 = .ok d) :
    ((e.connect c).value.1.deleteEdge d.id).2 = .ok d
      ∧ (d.source = c.source ∧ d.target = c.target
        ∧ (d.sourceHandle = if c.sourceHandle = some "" then none else c.sourceHandle)
        ∧ d.targetHandle = if c.targetHandle = some "" then none else c.targetHandle)
      ∧ ((e.connect c).value.1.deleteEdge d.id).1.workflow = e.workflow := by
  obtain ⟨hedge, -⟩ := connect_of_ok hdrawn
  rw [deleteEdge_connect hdrawn, ← properHandle_eq, ← properHandle_eq, hedge]
  exact ⟨rfl, ⟨rfl, rfl, rfl, rfl⟩, rfl⟩

/-- Two connections have the base id `pa-b-c`, and edges that were loaded have taken it twice, and the
number one besides. -/
def takenIds : Editor :=
  .opening
    { Workflow.draft "canvas" "Canvas" .event ⟨⟨2025, 1, 1⟩, 0, 0, 0, 0⟩ with
      graph :=
        { nodes :=
            [.fresh "a" .action ⟨.ofNat 0, .ofNat 0⟩, .fresh "b-c" .action ⟨.ofNat 100, .ofNat 0⟩,
              .fresh "a-b" .action ⟨.ofNat 0, .ofNat 900⟩, .fresh "c" .action ⟨.ofNat 100, .ofNat 900⟩]
          edges :=
            [⟨"pa-b-c", "a-b", "c", none, none, none, true⟩,
              ⟨"pa-b-c-1", "c", "nowhere", none, none, none, false⟩,
              ⟨"pa-b-c", "a-b", "c", none, none, none, true⟩] } }
    .standard .standard

def acrossIds : Connection :=
  ⟨"a", "b-c", some "", some "input"⟩

/-- The edge under the first id that is free. -/
def drawnAcross : Edge :=
  ⟨"pa-b-c-2", "a", "b-c", none, some "input", none, true⟩

theorem connect_taken_back_takenIds :
    (takenIds.connect acrossIds).value.2 = .ok drawnAcross
      ∧ (takenIds.connect acrossIds).value.1.graph.edges = takenIds.graph.edges ++ [drawnAcross]
      ∧ ((takenIds.connect acrossIds).value.1.deleteEdge drawnAcross.id).2 = .ok drawnAcross
      ∧ ((takenIds.connect acrossIds).value.1.deleteEdge drawnAcross.id).1.workflow
        = takenIds.workflow := by
  have hdrawn : (takenIds.connect acrossIds).value.2 = .ok drawnAcross := by decide +kernel
  obtain ⟨hdeleted, -, hworkflow⟩ := connect_taken_back takenIds acrossIds drawnAcross hdrawn
  exact ⟨hdrawn, by decide +kernel, hdeleted, hworkflow⟩

/-! ### What the report says

An accepted connection adds an edge and a deletion takes one out, and nothing else that a report looks
at changes. -/

variable {m : Geometry} {g g' : Graph}

theorem Step.report_sublist_of_connect (hstep : Step m g (.connect c) g') :
    g'.report.issues.Sublist g.report.issues := by
  cases hstep with
  | kept => exact List.Sublist.refl _
  | edgeDrawn => exact Graph.report_sublist (List.subset_append_left _ _) rfl

theorem Step.report_sublist_of_deleteEdge {id : String} (hstep : Step m g (.deleteEdge id) g') :
    g.report.issues.Sublist g'.report.issues := by
  cases hstep with
  | kept => exact List.Sublist.refl _
  | edgeDeleted => exact Graph.report_sublist List.eraseP_subset rfl

/-- Of two graphs with the same nodes, the one with more edges has no issue but those of the other, in
the same order. So connecting adds no issue and keeps a valid workflow valid, and deleting an edge takes
no issue away. -/
theorem more_edges_fewer_issues :
    (∀ (nodes : List Node) (edges edges' : List Edge), edges ⊆ edges' →
        (Graph.mk nodes edges').report.issues.Sublist (Graph.mk nodes edges).report.issues)
      ∧ ∀ e : Editor,
        (∀ c, (e.after (.connect c)).graph.report.issues.Sublist e.graph.report.issues
            ∧ (e.graph.report.isValid = true →
                (e.after (.connect c)).graph.report.isValid = true))
          ∧ ∀ id, e.graph.report.issues.Sublist (e.after (.deleteEdge id)).graph.report.issues := by
  refine ⟨fun nodes edges edges' hedges => Graph.report_sublist hedges rfl, fun e => ⟨fun c => ?_, ?_⟩⟩
  · have hissues := (e.step_after (.connect c)).report_sublist_of_connect
    exact ⟨hissues, Report.isValid_of_sublist hissues⟩
  · exact fun id => (e.step_after (.deleteEdge id)).report_sublist_of_deleteEdge

/-- The No branch is still to be drawn. -/
def halfDrawn : Editor :=
  .opening
    { Workflow.draft "canvas" "Canvas" .event ⟨⟨2025, 1, 1⟩, 0, 0, 0, 0⟩ with
      graph :=
        { nodes :=
            [Graph.startOf "start" "CRM",
              (Node.fresh "check" .condition ⟨.ofNat 100, .ofNat 0⟩).withConditions
                [⟨"c", some "CRM", none, "email", .text, .isEmpty, .text "", none, none⟩],
              .fresh "yes" .action ⟨.ofNat 200, .ofNat 0⟩, .fresh "no" .action ⟨.ofNat 200, .ofNat 100⟩]
          edges :=
            [⟨"e1", "start", "check", none, none, none, true⟩,
              ⟨"e2", "check", "yes", some yesHandle, none, none, true⟩] } }
    .standard .standard

/-- The edges in another order and twice over, and the missing one. -/
def fullyDrawn : List Edge :=
  halfDrawn.graph.edges.reverse
    ++ ⟨"e3", "check", "no", some noHandle, none, none, true⟩ :: halfDrawn.graph.edges

theorem more_edges_fewer_issues_halfDrawn :
    (halfDrawn.graph.edges ⊆ fullyDrawn
        ∧ (Graph.mk halfDrawn.graph.nodes fullyDrawn).report.issues.Sublist
          halfDrawn.graph.report.issues)
      ∧ halfDrawn.graph.report.isValid = true
      ∧ (halfDrawn.after (.connect ⟨"check", "no", some "no", none⟩)).graph.report.isValid = true
      ∧ halfDrawn.graph.report.issues.length = 2
      ∧ (halfDrawn.after (.connect ⟨"check", "no", some "no", none⟩)).graph.report.issues = []
      ∧ (halfDrawn.after (.deleteEdge "e2")).graph.report.issues.length = 4 := by
  have hedges : halfDrawn.graph.edges ⊆ fullyDrawn := fun e he =>
    List.mem_append_right _ (List.mem_cons_of_mem _ he)
  have hvalid : halfDrawn.graph.report.isValid = true := by decide +kernel
  refine ⟨⟨hedges, more_edges_fewer_issues.1 _ _ _ hedges⟩, hvalid, ?_, ?_⟩
  · exact ((more_edges_fewer_issues.2 halfDrawn).1 _).2 hvalid
  · decide +kernel

end Editor

end SegmentFlow
