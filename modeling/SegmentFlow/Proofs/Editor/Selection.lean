import Mathlib.Data.List.Infix
import SegmentFlow.Proofs.Editor.Acyclic
import SegmentFlow.Proofs.Editor.Changes
/-!
# What stays selected

The editor holds the id of what is selected and looks it up when asked. Deleting the selected node or
the selected edge gives the id up. But deleting a node takes the edges at it along without a look at
which of them is selected: that id is left behind, and it comes back to life with the next edge that is
drawn under it.
-/

namespace SegmentFlow.Editor

namespace Operation

/-- The operations that select. -/
def IsSelect : Operation → Prop
  | selectNode _ | selectEdge _ => True
  | _ => False

instance (o : Operation) : Decidable o.IsSelect :=
  match o with
  | selectNode _ | selectEdge _ => isTrue trivial
  | addNode _ | moveNode _ _ | deleteNode _ | setConditions _ _ | connect _ | deleteEdge _
  | ensureStartNode | validate | compile | dismissNotice | markSaved _ => isFalse id

/-- What the operation selects, if anything, is in the graph. -/
def SelectsFrom (g : Graph) : Operation → Prop
  | selectNode (some id) => (g.node? id).isSome = true
  | selectEdge (some id) => (g.edge? id).isSome = true
  | _ => True

end Operation

/-- Whenever a node or an edge is selected in the run, it is in the graph at that moment. -/
def SelectsPresent : Editor → List Operation → Prop
  | _, [] => True
  | e, o :: os => o.SelectsFrom e.graph ∧ SelectsPresent (e.after o) os

/-- The operation takes the selected node or the selected edge out of the graph. -/
def TakesSelected (e : Editor) : Operation → Prop
  | .deleteNode id =>
    e.Accepts (.deleteNode id)
      ∧ (e.selectedNodeId = some id ∨ ∃ d ∈ e.selectedEdge?, d.source = id ∨ d.target = id)
  | .deleteEdge id => e.Accepts (.deleteEdge id) ∧ e.selectedEdgeId = some id
  | _ => False

instance (e : Editor) (o : Operation) : Decidable (e.TakesSelected o) :=
  match o with
  | .deleteNode id =>
    inferInstanceAs (Decidable (e.Accepts (.deleteNode id)
      ∧ (e.selectedNodeId = some id ∨ ∃ d ∈ e.selectedEdge?, d.source = id ∨ d.target = id)))
  | .deleteEdge id =>
    inferInstanceAs (Decidable (e.Accepts (.deleteEdge id) ∧ e.selectedEdgeId = some id))
  | .addNode _ | .moveNode _ _ | .setConditions _ _ | .connect _ | .selectNode _ | .selectEdge _
  | .ensureStartNode | .validate | .compile | .dismissNotice | .markSaved _ => isFalse id

/-- Once what is selected is taken out of the graph, nothing is selected until something is selected
again. -/
def SelectionEnds (e : Editor) (operations : List Operation) : Prop :=
  ∀ before o after, operations = before ++ o :: after → (e.run before).TakesSelected o →
    (∀ a ∈ after, ¬ a.IsSelect) →
      (e.run operations).selectedNode? = none ∧ (e.run operations).selectedEdge? = none

variable (e : Editor)

/-! ### One operation -/

/-- Something selected before is selected still, or its id is given up. An edge is given up only while
it is there. -/
structure Forgets (e e' : Editor) : Prop where
  node : e'.selectedNodeId = e.selectedNodeId ∨ e'.selectedNodeId = none
  edge : e'.selectedEdgeId = e.selectedEdgeId
    ∨ e'.selectedEdgeId = none ∧ e.selectedEdge?.isSome = true

theorem Forgets.node_eq_none {e e' : Editor} (hforgets : Forgets e e')
    (hnode : e.selectedNodeId = none) : e'.selectedNodeId = none :=
  hforgets.node.elim (fun hkept => hkept.trans hnode) id

theorem Forgets.edge_eq_none {e e' : Editor} (hforgets : Forgets e e')
    (hedge : e.selectedEdgeId = none) : e'.selectedEdgeId = none :=
  hforgets.edge.elim (fun hkept => hkept.trans hedge) And.left

theorem forgets_of_eq {e e' : Editor} (hnode : e'.selectedNodeId = e.selectedNodeId)
    (hedge : e'.selectedEdgeId = e.selectedEdgeId) : Forgets e e' :=
  ⟨.inl hnode, .inl hedge⟩

theorem forgets_addNode (n : Node) : Forgets e (e.addNode n).1 := by
  rw [addNode]
  split <;> exact forgets_of_eq rfl rfl

theorem forgets_changeNode (id : String) (change : Node → Node) :
    Forgets e (e.changeNode id change).1 := by
  rw [changeNode]
  split <;> exact forgets_of_eq rfl rfl

theorem forgets_ensureStartNode : Forgets e e.ensureStartNode.1 := by
  rw [ensureStartNode]
  split
  · exact e.forgets_addNode standardStartNode
  · exact forgets_of_eq rfl rfl

theorem forgets_connect (c : Connection) : Forgets e (e.connect c).value.1 := by
  rw [connect]
  dsimp only
  split <;> exact forgets_of_eq rfl rfl

theorem forgets_deleteNode (id : String) : Forgets e (e.deleteNode id).1 := by
  rw [deleteNode]
  split
  · exact forgets_of_eq rfl rfl
  · split
    · exact forgets_of_eq rfl rfl
    · refine ⟨?_, .inl rfl⟩
      dsimp only
      split
      · exact .inr rfl
      · exact .inl rfl

theorem forgets_deleteEdge (id : String) : Forgets e (e.deleteEdge id).1 := by
  rw [deleteEdge]
  split
  · exact forgets_of_eq rfl rfl
  · rename_i d hfound
    refine ⟨.inl rfl, ?_⟩
    dsimp only
    split
    · rename_i hselected
      exact .inr ⟨rfl, by rw [selectedEdge?, hselected, Option.bind_some, hfound, Option.isSome_some]⟩
    · exact .inl rfl

theorem forgets_after {o : Operation} (hselect : ¬ o.IsSelect) : Forgets e (e.after o) := by
  cases o with
  | addNode n => exact e.forgets_addNode n
  | moveNode id p => exact e.forgets_changeNode id _
  | deleteNode id => exact e.forgets_deleteNode id
  | setConditions id cs => exact e.forgets_changeNode id _
  | connect c => exact e.forgets_connect c
  | deleteEdge id => exact e.forgets_deleteEdge id
  | selectNode | selectEdge => exact absurd trivial hselect
  | ensureStartNode => exact e.forgets_ensureStartNode
  | validate | compile | dismissNotice | markSaved => exact forgets_of_eq rfl rfl

/-- A node and an edge are not selected together. -/
def OneSelected : Prop :=
  e.selectedNodeId = none ∨ e.selectedEdgeId = none

theorem oneSelected_after (o : Operation) (hone : e.OneSelected) : (e.after o).OneSelected := by
  by_cases hselect : o.IsSelect
  · cases o with
    | selectNode id => exact .inr rfl
    | selectEdge id => exact .inl rfl
    | _ => exact hselect.elim
  · have hforgets := e.forgets_after hselect
    rcases hone with hnode | hedge
    · exact .inl (hforgets.node_eq_none hnode)
    · exact .inr (hforgets.edge_eq_none hedge)

theorem selected_deleteNode {id : String} (haccepts : e.Accepts (.deleteNode id)) :
    (e.after (.deleteNode id)).selectedNodeId
        = (if e.selectedNodeId = some id then none else e.selectedNodeId)
      ∧ (e.after (.deleteNode id)).selectedEdgeId = e.selectedEdgeId := by
  have haccepted : ¬ Refused (.deleteNode id) (.of .node (e.deleteNode id).2) := haccepts.2
  change (e.deleteNode id).1.selectedNodeId = _ ∧ (e.deleteNode id).1.selectedEdgeId = _
  cases hnode : e.graph.node? id with
  | none => simp [deleteNode, hnode, Result.of, Refused] at haccepted
  | some n =>
      by_cases hkind : n.kind = .start
      · simp [deleteNode, hnode, hkind, Result.of, Refused] at haccepted
      · simp [deleteNode, hnode, hkind, edited]

theorem selected_deleteEdge {id : String} (haccepts : e.Accepts (.deleteEdge id)) :
    (e.after (.deleteEdge id)).selectedNodeId = e.selectedNodeId
      ∧ (e.after (.deleteEdge id)).selectedEdgeId
        = (if e.selectedEdgeId = some id then none else e.selectedEdgeId) := by
  have haccepted : ¬ Refused (.deleteEdge id) (.of .edge (e.deleteEdge id).2) := haccepts.2
  change (e.deleteEdge id).1.selectedNodeId = _ ∧ (e.deleteEdge id).1.selectedEdgeId = _
  cases hedge : e.graph.edge? id with
  | none => simp [deleteEdge, hedge, Result.of, Refused] at haccepted
  | some d => simp [deleteEdge, hedge, edited]

variable {e}

theorem selectedEdgeId_of_selectedEdge? {d : Edge} (hd : e.selectedEdge? = some d) :
    e.selectedEdgeId = some d.id := by
  obtain ⟨id, hid, hfound⟩ := Option.bind_eq_some_iff.1 hd
  have hdid : d.id = id := by simpa using List.find?_some hfound
  rw [hid, hdid]

namespace OneSelected

theorem none_of_deleteEdge (hone : e.OneSelected) {id : String}
    (htakes : e.TakesSelected (.deleteEdge id)) :
    (e.after (.deleteEdge id)).selectedNodeId = none
      ∧ (e.after (.deleteEdge id)).selectedEdgeId = none := by
  obtain ⟨haccepts, hselected⟩ := htakes
  have hnode : e.selectedNodeId = none :=
    hone.resolve_right fun hedge => nomatch hselected.symm.trans hedge
  obtain ⟨hnode', hedge'⟩ := e.selected_deleteEdge haccepts
  exact ⟨hnode'.trans hnode, hedge'.trans (if_pos hselected)⟩

theorem none_of_deleteNode (hone : e.OneSelected) {id : String}
    (haccepts : e.Accepts (.deleteNode id)) (hselected : e.selectedNodeId = some id) :
    (e.after (.deleteNode id)).selectedNodeId = none
      ∧ (e.after (.deleteNode id)).selectedEdgeId = none := by
  have hedge : e.selectedEdgeId = none :=
    hone.resolve_left fun hnode => nomatch hselected.symm.trans hnode
  obtain ⟨hnode', hedge'⟩ := e.selected_deleteNode haccepts
  exact ⟨hnode'.trans (if_pos hselected), hedge'.trans hedge⟩

/-- Deleting a node leaves the id of a selected edge behind, be it one at that node or not. -/
theorem left_of_deleteNode (hone : e.OneSelected) {id : String}
    (haccepts : e.Accepts (.deleteNode id)) {d : Edge} (hd : e.selectedEdge? = some d) :
    (e.after (.deleteNode id)).selectedNodeId = none
      ∧ (e.after (.deleteNode id)).selectedEdgeId = some d.id := by
  have hid := selectedEdgeId_of_selectedEdge? hd
  have hnode : e.selectedNodeId = none :=
    hone.resolve_right fun hedge => nomatch hid.symm.trans hedge
  obtain ⟨hnode', hedge'⟩ := e.selected_deleteNode haccepts
  rw [hnode, ite_self] at hnode'
  exact ⟨hnode', hedge'.trans hid⟩

end OneSelected

/-! ### Runs without a select -/

/-- What operations that do not select keep, a run of them keeps. -/
theorem run_unselecting {P : Editor → Prop} (hstep : ∀ e o, ¬ o.IsSelect → P e → P (e.after o))
    {operations : List Operation} (hselect : ∀ o ∈ operations, ¬ o.IsSelect) (he : P e) :
    P (e.run operations) := by
  induction operations generalizing e with
  | nil => exact he
  | cons o os ih =>
      have hfirst : P (e.after o) := hstep e o (hselect o List.mem_cons_self) he
      exact ih (fun a ha => hselect a (List.mem_cons_of_mem _ ha)) hfirst

theorem selectedNodeId_run {operations : List Operation} (hselect : ∀ o ∈ operations, ¬ o.IsSelect)
    (hnode : e.selectedNodeId = none) : (e.run operations).selectedNodeId = none :=
  run_unselecting (P := fun e => e.selectedNodeId = none)
    (fun e _ hselect hnode => (e.forgets_after hselect).node_eq_none hnode) hselect hnode

theorem selectedEdgeId_run {operations : List Operation} (hselect : ∀ o ∈ operations, ¬ o.IsSelect)
    (hedge : e.selectedEdgeId = none) : (e.run operations).selectedEdgeId = none :=
  run_unselecting (P := fun e => e.selectedEdgeId = none)
    (fun e _ hselect hedge => (e.forgets_after hselect).edge_eq_none hedge) hselect hedge

theorem selected_run_of_none (hnode : e.selectedNodeId = none) (hedge : e.selectedEdgeId = none)
    {operations : List Operation} (hselect : ∀ o ∈ operations, ¬ o.IsSelect) :
    (e.run operations).selectedNode? = none ∧ (e.run operations).selectedEdge? = none := by
  rw [selectedNode?, selectedEdge?, selectedNodeId_run hselect hnode,
    selectedEdgeId_run hselect hedge]
  exact ⟨rfl, rfl⟩

theorem selectedEdge?_eq_none_iff {id : String} (hid : e.selectedEdgeId = some id) :
    e.selectedEdge? = none ↔ e.graph.hasEdge id = false := by
  rw [selectedEdge?, hid, Option.bind_some, Graph.hasEdge, Option.isSome_eq_false_iff,
    Option.isNone_iff_eq_none]

/-- An id that is left behind is looked up in vain exactly as long as no edge has it. -/
theorem selectedEdge?_run_iff {id : String} (hid : e.selectedEdgeId = some id)
    {operations : List Operation} (hselect : ∀ o ∈ operations, ¬ o.IsSelect) :
    (∀ mid, mid <+: operations → (e.run mid).selectedEdge? = none)
      ↔ ∀ mid, mid <+: operations → (e.run mid).graph.hasEdge id = false := by
  induction operations generalizing e with
  | nil =>
      simp only [List.prefix_nil, forall_eq]
      exact selectedEdge?_eq_none_iff hid
  | cons o os ih =>
      have hselect' : ∀ a ∈ os, ¬ a.IsSelect := fun a ha => hselect a (List.mem_cons_of_mem _ ha)
      have hforgets := e.forgets_after (hselect o List.mem_cons_self)
      have hnow := selectedEdge?_eq_none_iff hid
      constructor
      · intro hnone mid hmid
        have hfirst : e.selectedEdge? = none := hnone [] List.nil_prefix
        rcases List.prefix_cons_iff.1 hmid with rfl | ⟨rest, rfl, hrest⟩
        · exact hnow.1 hfirst
        · have hkept : (e.after o).selectedEdgeId = some id := by
            rcases hforgets.edge with hkept | ⟨-, hthere⟩
            · exact hkept.trans hid
            · rw [hfirst] at hthere
              exact nomatch hthere
          exact (ih hkept hselect').1
            (fun r hr => hnone (o :: r) (List.cons_prefix_cons.2 ⟨rfl, hr⟩)) rest hrest
      · intro hfree mid hmid
        rcases List.prefix_cons_iff.1 hmid with rfl | ⟨rest, rfl, hrest⟩
        · exact hnow.2 (hfree [] List.nil_prefix)
        · rcases hforgets.edge with hkept | ⟨hgone, -⟩
          · exact (ih (hkept.trans hid) hselect').2
              (fun r hr => hfree (o :: r) (List.cons_prefix_cons.2 ⟨rfl, hr⟩)) rest hrest
          · have hstill := selectedEdgeId_run
              (fun a ha => hselect' a (hrest.subset ha)) hgone
            change ((e.after o).run rest).selectedEdge? = none
            rw [selectedEdge?, hstill, Option.bind_none]

theorem oneSelected_session (workflow : Workflow) (geometry : Geometry)
    (assembler : Compile.Assembler) (operations : List Operation) :
    (session workflow geometry assembler operations).OneSelected :=
  run_induction _ oneSelected_after (.inl rfl) operations

/-- After what is selected was taken out, nothing is selected in all later states up to the next
select, except that an edge may be selected that was drawn, or was there already, under the id of a
selected edge that went with its node. -/
theorem selection_stays_empty_iff (workflow : Workflow) (geometry : Geometry)
    (assembler : Compile.Assembler) (before : List Operation) {o : Operation}
    {after : List Operation}
    (htakes : (session workflow geometry assembler before).TakesSelected o)
    (hselect : ∀ a ∈ after, ¬ a.IsSelect) :
    (∀ mid, mid <+: after →
        (session workflow geometry assembler (before ++ o :: mid)).selectedNode? = none
          ∧ (session workflow geometry assembler (before ++ o :: mid)).selectedEdge? = none)
      ↔ ∀ d ∈ (session workflow geometry assembler before).selectedEdge?,
          (∃ id, o = .deleteNode id) → ∀ mid, mid <+: after →
            (session workflow geometry assembler (before ++ o :: mid)).graph.hasEdge d.id
              = false := by
  have hone := oneSelected_session workflow geometry assembler before
  have hlater (mid : List Operation) : session workflow geometry assembler (before ++ o :: mid)
      = ((session workflow geometry assembler before).after o).run mid := run_append _ before _
  simp only [hlater]
  generalize session workflow geometry assembler before = e at htakes hone
  have hmid {mid : List Operation} (hinit : mid <+: after) : ∀ a ∈ mid, ¬ a.IsSelect :=
    fun a ha => hselect a (hinit.subset ha)
  cases o with
  | deleteEdge id =>
      obtain ⟨hnode, hedge⟩ := hone.none_of_deleteEdge htakes
      refine iff_of_true (fun mid hinit => selected_run_of_none hnode hedge (hmid hinit)) ?_
      rintro d hd ⟨k, hk⟩
      exact nomatch hk
  | deleteNode id =>
      obtain ⟨haccepts, hselected | ⟨d, hd, -⟩⟩ := htakes
      · obtain ⟨hnode, hedge⟩ := hone.none_of_deleteNode haccepts hselected
        refine iff_of_true (fun mid hinit => selected_run_of_none hnode hedge (hmid hinit)) ?_
        intro d hd
        rw [(e.selected_deleteNode haccepts).2] at hedge
        exact nomatch hedge.symm.trans (selectedEdgeId_of_selectedEdge? hd)
      · obtain ⟨hnode, hedge⟩ := hone.left_of_deleteNode haccepts hd
        have hleft := selectedEdge?_run_iff hedge hselect
        constructor
        · intro hempty d' hd' _
          obtain rfl := Option.mem_unique hd hd'
          exact hleft.1 fun mid hinit => (hempty mid hinit).2
        · intro hfree mid hinit
          refine ⟨?_, hleft.2 (hfree d hd ⟨id, rfl⟩) mid hinit⟩
          rw [selectedNode?, selectedNodeId_run (hmid hinit) hnode, Option.bind_none]
  | _ => exact htakes.elim

/-- Another edge is drawn after the selected one went with its node. -/
def drawElsewhere : List Operation :=
  [.addNode (.fresh "c" .action ⟨.ofNat 500, .ofNat 0⟩), .connect ⟨"a", "c", none, none⟩]

def selectFirst : List Operation :=
  [.connect ⟨"a", "b", none, none⟩, .selectEdge (some "pa-b")]

theorem selection_stays_empty_drawElsewhere :
    (twoNodes.run selectFirst).TakesSelected (.deleteNode "b")
      ∧ (twoNodes.run (selectFirst ++ .deleteNode "b" :: drawElsewhere)).graph.edges.map Edge.id
        = ["pa-c"]
      ∧ ∀ mid, mid <+: drawElsewhere →
          (twoNodes.run (selectFirst ++ .deleteNode "b" :: mid)).selectedNode? = none
            ∧ (twoNodes.run (selectFirst ++ .deleteNode "b" :: mid)).selectedEdge? = none := by
  have htakes : (twoNodes.run selectFirst).TakesSelected (.deleteNode "b") := by decide +kernel
  have hfree : ∀ d ∈ (twoNodes.run selectFirst).selectedEdge?, ∀ mid ∈ drawElsewhere.inits,
      (twoNodes.run (selectFirst ++ .deleteNode "b" :: mid)).graph.hasEdge d.id = false := by
    decide +kernel
  refine ⟨htakes, by decide +kernel, ?_⟩
  exact (selection_stays_empty_iff twoNodes.workflow twoNodes.geometry twoNodes.assembler
    selectFirst htakes (by decide)).2
    fun d hd _ mid hmid => hfree d hd mid ((List.mem_inits _ _).2 hmid)

/-! ### An id that comes back to life -/

/-- The selected edge goes with the node that it leads to, and both are drawn anew. -/
def redraw : List Operation :=
  [.addNode (.fresh "b" .action ⟨.ofNat 100, .ofNat 0⟩), .connect ⟨"a", "b", none, none⟩]

theorem revived_redraw :
    twoNodes.SelectsPresent (selectFirst ++ .deleteNode "b" :: redraw)
      ∧ ¬ twoNodes.SelectionEnds (selectFirst ++ .deleteNode "b" :: redraw) := by
  have htakes : (twoNodes.run selectFirst).TakesSelected (.deleteNode "b") := by decide +kernel
  have hrevived : (twoNodes.run (selectFirst ++ .deleteNode "b" :: redraw)).selectedEdge?.isSome
      = true := by decide +kernel
  have hthere : ((twoNodes.run (selectFirst.take 1)).graph.edge? "pa-b").isSome = true := by
    decide +kernel
  refine ⟨⟨trivial, hthere, trivial, trivial, trivial, trivial⟩, fun hends => ?_⟩
  have hnone := (hends selectFirst (.deleteNode "b") redraw rfl htakes (by decide)).2
  rw [hnone] at hrevived
  exact nomatch hrevived

end SegmentFlow.Editor
