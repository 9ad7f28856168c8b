import SegmentFlow.Proofs.Canvas.Admission
import SegmentFlow.Proofs.Editor.EdgeIds
import SegmentFlow.Proofs.Editor.Steps
/-!
# The graph of an editor stays well formed

In a well formed graph ids are not repeated, no edge hangs in the air, and a start node leads to one
condition node. The parts lean on each other: a new node can have no edges because no edge hangs in
the air, and a deleted condition takes the edges of its start node along. So all of them are kept
together, one operation at a time.
-/

namespace SegmentFlow

/-- What the shape of a graph depends on in a node. -/
def Node.role (n : Node) : String × NodeKind :=
  (n.id, n.kind)

namespace Graph

structure WellFormed (g : Graph) : Prop where
  nodes_nodup : (g.nodes.map Node.id).Nodup
  edges_nodup : (g.edges.map Edge.id).Nodup
  source_mem : ∀ e ∈ g.edges, e.source ∈ g.nodes.map Node.id
  target_mem : ∀ e ∈ g.edges, e.target ∈ g.nodes.map Node.id
  start_one : ∀ n ∈ g.nodes, n.kind = .start →
    ∀ e ∈ g.outgoing n.id, ∀ f ∈ g.outgoing n.id, e.target = f.target
  start_condition : ∀ n ∈ g.nodes, n.kind = .start →
    ∀ e ∈ g.outgoing n.id, ∃ t ∈ g.nodes, t.id = e.target ∧ t.kind = .condition

variable {g g' : Graph}

theorem exists_mem_of_roles (hroles : g'.nodes.map Node.role = g.nodes.map Node.role) {n : Node}
    (hn : n ∈ g'.nodes) : ∃ k ∈ g.nodes, k.id = n.id ∧ k.kind = n.kind := by
  have hmem : n.role ∈ g.nodes.map Node.role := hroles ▸ List.mem_map_of_mem hn
  obtain ⟨k, hk, hrole⟩ := List.mem_map.1 hmem
  exact ⟨k, hk, congrArg Prod.fst hrole, congrArg Prod.snd hrole⟩

theorem ids_of_roles (hroles : g'.nodes.map Node.role = g.nodes.map Node.role) :
    g'.nodes.map Node.id = g.nodes.map Node.id := by
  have hfirst := congrArg (List.map Prod.fst) hroles
  rw [List.map_map, List.map_map] at hfirst
  exact hfirst

theorem nodup_ids_concat (hids : (g.nodes.map Node.id).Nodup) {n : Node} (hnew : g.node? n.id = none) :
    ((g.nodes ++ [n]).map Node.id).Nodup := by
  rw [List.map_append, List.map_singleton, ← List.concat_eq_append]
  exact hids.concat (node?_eq_none_iff.1 hnew)

namespace WellFormed

/-- Where nodes are and what they hold does not matter. -/
theorem of_roles (hg : g.WellFormed) (hroles : g'.nodes.map Node.role = g.nodes.map Node.role)
    (hedges : g'.edges = g.edges) : g'.WellFormed := by
  have hids := ids_of_roles hroles
  have hout (id : String) : g'.outgoing id = g.outgoing id := by rw [outgoing, hedges, outgoing]
  refine ⟨hids ▸ hg.nodes_nodup, hedges ▸ hg.edges_nodup, ?_, ?_, ?_, ?_⟩
  · rw [hedges, hids]
    exact hg.source_mem
  · rw [hedges, hids]
    exact hg.target_mem
  · intro n hn hkind e he f hf
    obtain ⟨k, hk, hid, hkind'⟩ := exists_mem_of_roles hroles hn
    rw [hout, ← hid] at he hf
    exact hg.start_one k hk (hkind'.trans hkind) e he f hf
  · intro n hn hkind e he
    obtain ⟨k, hk, hid, hkind'⟩ := exists_mem_of_roles hroles hn
    rw [hout, ← hid] at he
    obtain ⟨t, ht, htid, htkind⟩ := hg.start_condition k hk (hkind'.trans hkind) e he
    obtain ⟨t', ht', htid', htkind'⟩ := exists_mem_of_roles hroles.symm ht
    exact ⟨t', ht', htid'.trans htid, htkind'.trans htkind⟩

theorem of_edges_sublist (hg : g.WellFormed) (hnodes : g'.nodes = g.nodes)
    (hedges : g'.edges.Sublist g.edges) : g'.WellFormed := by
  have hout {id : String} {e : Edge} (he : e ∈ g'.outgoing id) : e ∈ g.outgoing id := by
    rw [mem_outgoing] at he ⊢
    exact ⟨hedges.subset he.1, he.2⟩
  refine ⟨hnodes ▸ hg.nodes_nodup, hg.edges_nodup.sublist (hedges.map Edge.id), ?_, ?_, ?_, ?_⟩
  · rw [hnodes]
    exact fun e he => hg.source_mem e (hedges.subset he)
  · rw [hnodes]
    exact fun e he => hg.target_mem e (hedges.subset he)
  · rw [hnodes]
    exact fun n hn hkind e he f hf => hg.start_one n hn hkind e (hout he) f (hout hf)
  · rw [hnodes]
    exact fun n hn hkind e he => hg.start_condition n hn hkind e (hout he)

theorem addNode (hg : g.WellFormed) {n : Node} (hnew : g.node? n.id = none) :
    ({ g with nodes := g.nodes ++ [n] } : Graph).WellFormed := by
  have hnotMem : n.id ∉ g.nodes.map Node.id := node?_eq_none_iff.1 hnew
  have hsub : g.nodes.map Node.id ⊆ (g.nodes ++ [n]).map Node.id := by
    rw [List.map_append]
    exact List.subset_append_left _ _
  -- No edge hangs in the air, so none can be at an id that is new.
  have hnone {e : Edge} (he : e ∈ g.outgoing n.id) : False := by
    rw [mem_outgoing] at he
    exact hnotMem (he.2 ▸ hg.source_mem e he.1)
  refine ⟨nodup_ids_concat hg.nodes_nodup hnew, hg.edges_nodup, fun e he => hsub (hg.source_mem e he),
    fun e he => hsub (hg.target_mem e he), ?_, ?_⟩
  · intro k hk hkind e he f hf
    rcases List.mem_append.1 hk with hk | hk
    · exact hg.start_one k hk hkind e he f hf
    · obtain rfl := List.mem_singleton.1 hk
      exact absurd he hnone
  · intro k hk hkind e he
    rcases List.mem_append.1 hk with hk | hk
    · obtain ⟨t, ht, htarget⟩ := hg.start_condition k hk hkind e he
      exact ⟨t, List.mem_append_left _ ht, htarget⟩
    · obtain rfl := List.mem_singleton.1 hk
      exact absurd he hnone

end WellFormed

/-! ### Changes of one node -/

theorem roles_updateNode (id : String) {change : Node → Node}
    (hrole : ∀ n, (change n).role = n.role) :
    (g.updateNode id change).nodes.map Node.role = g.nodes.map Node.role := by
  rw [updateNode]
  dsimp only
  induction g.nodes with
  | nil => rfl
  | cons n ns ih =>
      rw [updateNode.go]
      split
      · rw [List.map_cons, List.map_cons, hrole]
      · rw [List.map_cons, List.map_cons, ih]

/-- Where no id is repeated, taking out the first node with an id takes out all of them. -/
theorem mem_nodes_eraseNode (hnodup : (g.nodes.map Node.id).Nodup) {id : String} {k : Node} :
    k ∈ (g.eraseNode id).nodes ↔ k ∈ g.nodes ∧ k.id ≠ id := by
  rw [eraseNode]
  dsimp only
  revert hnodup
  induction g.nodes with
  | nil => simp
  | cons n ns ih =>
      intro hnodup
      rw [List.map_cons, List.nodup_cons] at hnodup
      by_cases hn : n.id = id
      · rw [List.eraseP_cons, decide_eq_true hn, cond_true]
        refine ⟨fun hk => ⟨List.mem_cons_of_mem _ hk, fun hid => hnodup.1 ?_⟩, fun hk => ?_⟩
        · exact hn.trans hid.symm ▸ List.mem_map_of_mem hk
        · rcases List.mem_cons.1 hk.1 with rfl | hmem
          · exact absurd hn hk.2
          · exact hmem
      · rw [List.eraseP_cons, decide_eq_false hn, cond_false, List.mem_cons, ih hnodup.2,
          List.mem_cons]
        constructor
        · rintro (rfl | hk)
          · exact ⟨.inl rfl, hn⟩
          · exact ⟨.inr hk.1, hk.2⟩
        · rintro ⟨rfl | hk, hid⟩
          · exact .inl rfl
          · exact .inr ⟨hk, hid⟩

theorem WellFormed.eraseNode (hg : g.WellFormed) (id : String) : (g.eraseNode id).WellFormed := by
  have hmem {k : Node} : k ∈ (g.eraseNode id).nodes ↔ k ∈ g.nodes ∧ k.id ≠ id :=
    mem_nodes_eraseNode hg.nodes_nodup
  have hedge {e : Edge} : e ∈ (g.eraseNode id).edges ↔ e ∈ g.edges ∧ e.source ≠ id ∧ e.target ≠ id := by
    simp [Graph.eraseNode]
  have hout {k : String} {e : Edge} (he : e ∈ (g.eraseNode id).outgoing k) :
      e ∈ g.outgoing k ∧ e.target ≠ id := by
    rw [mem_outgoing] at he ⊢
    exact ⟨⟨(hedge.1 he.1).1, he.2⟩, (hedge.1 he.1).2.2⟩
  have hkept {k : String} (hk : k ∈ g.nodes.map Node.id) (hne : k ≠ id) :
      k ∈ (g.eraseNode id).nodes.map Node.id := by
    obtain ⟨n, hn, rfl⟩ := List.mem_map.1 hk
    exact List.mem_map_of_mem (hmem.2 ⟨hn, hne⟩)
  refine ⟨hg.nodes_nodup.sublist (List.eraseP_sublist.map Node.id),
    hg.edges_nodup.sublist (List.filter_sublist.map Edge.id), ?_, ?_, ?_, ?_⟩
  · intro e he
    have he := hedge.1 he
    exact hkept (hg.source_mem e he.1) he.2.1
  · intro e he
    have he := hedge.1 he
    exact hkept (hg.target_mem e he.1) he.2.2
  · intro n hn hkind e he f hf
    exact hg.start_one n (hmem.1 hn).1 hkind e (hout he).1 f (hout hf).1
  · intro n hn hkind e he
    obtain ⟨t, ht, htid, htkind⟩ := hg.start_condition n (hmem.1 hn).1 hkind e (hout he).1
    exact ⟨t, hmem.2 ⟨ht, htid ▸ (hout he).2⟩, htid, htkind⟩

/-! ### A new edge -/

theorem mem_outgoing_append {id : String} {e d : Edge} :
    e ∈ ({ g with edges := g.edges ++ [d] } : Graph).outgoing id
      ↔ e ∈ g.outgoing id ∨ e = d ∧ d.source = id := by
  rw [mem_outgoing, mem_outgoing, List.mem_append, List.mem_singleton]
  constructor
  · rintro ⟨he | rfl, hid⟩
    · exact .inl ⟨he, hid⟩
    · exact .inr ⟨rfl, hid⟩
  · rintro (⟨he, hid⟩ | ⟨rfl, hid⟩)
    · exact ⟨.inl he, hid⟩
    · exact ⟨.inr rfl, hid⟩

theorem WellFormed.drawEdge (hg : g.WellFormed) {m : Geometry} {c : Connection}
    (hpass : m.check g c = .ok ()) :
    ({ g with edges := g.edges ++ [c.toEdge g] } : Graph).WellFormed := by
  obtain ⟨source, target, hadmits⟩ := Geometry.check_eq_ok_iff.1 hpass
  have hsource := id_of_node?_eq_some hadmits.source_found
  have htarget := id_of_node?_eq_some hadmits.target_found
  have hsource_mem := mem_of_node?_eq_some hadmits.source_found
  have htarget_mem := mem_of_node?_eq_some hadmits.target_found
  have hfresh : (c.toEdge g).id ∉ g.edges.map Edge.id := fun hmem =>
    Bool.eq_false_iff.1 (g.hasEdge_newEdgeId c.source c.target _) (g.hasEdge_iff.2 hmem)
  -- If the new edge leaves a start node, then that is the source, and the rules were checked on it.
  have hrules {n : Node} (hn : n ∈ g.nodes) (hkind : n.kind = .start) (hid : c.source = n.id) :
      (∀ e ∈ g.outgoing n.id, e.target = c.target) ∧ target.kind = .condition := by
    have hfound := node?_eq_some hg.nodes_nodup hn
    rw [← hid, hadmits.source_found] at hfound
    obtain rfl := Option.some.inj hfound
    rw [← htarget]
    exact hadmits.start hkind
  refine ⟨hg.nodes_nodup, ?_, ?_, ?_, ?_, ?_⟩
  · rw [List.map_append, List.map_singleton, ← List.concat_eq_append]
    exact hg.edges_nodup.concat hfresh
  · intro e he
    rcases List.mem_append.1 he with he | he
    · exact hg.source_mem e he
    · obtain rfl := List.mem_singleton.1 he
      exact List.mem_map.2 ⟨source, hsource_mem, hsource⟩
  · intro e he
    rcases List.mem_append.1 he with he | he
    · exact hg.target_mem e he
    · obtain rfl := List.mem_singleton.1 he
      exact List.mem_map.2 ⟨target, htarget_mem, htarget⟩
  · intro n hn hkind e he f hf
    rcases mem_outgoing_append.1 he with he | ⟨rfl, hid⟩
    · rcases mem_outgoing_append.1 hf with hf | ⟨rfl, hid⟩
      · exact hg.start_one n hn hkind e he f hf
      · exact (hrules hn hkind hid).1 e he
    · rcases mem_outgoing_append.1 hf with hf | ⟨rfl, -⟩
      · exact ((hrules hn hkind hid).1 f hf).symm
      · rfl
  · intro n hn hkind e he
    rcases mem_outgoing_append.1 he with he | ⟨rfl, hid⟩
    · exact hg.start_condition n hn hkind e he
    · exact ⟨target, htarget_mem, htarget, (hrules hn hkind hid).2⟩

end Graph

/-! ### Runs -/

namespace Editor

variable {m : Geometry} {g g' : Graph} {o : Operation}

theorem Step.wellFormed (hstep : Step m g o g') (hg : g.WellFormed) : g'.WellFormed := by
  cases hstep with
  | kept => exact hg
  | nodeAdded hnew => exact hg.addNode hnew
  | startAdded hnew => exact hg.addNode hnew
  | nodeMoved id p => exact hg.of_roles (Graph.roles_updateNode id fun _ => rfl) rfl
  | conditionsSet id cs => exact hg.of_roles (Graph.roles_updateNode id fun _ => rfl) rfl
  | nodeDeleted => exact hg.eraseNode _
  | edgeDrawn hpass => exact hg.drawEdge hpass
  | edgeDeleted id => exact hg.of_edges_sublist rfl List.eraseP_sublist

/-- Whatever the geometry, and whatever is done in whatever order, a well formed graph stays one. -/
theorem wellFormed_run (e : Editor) (hgraph : e.graph.WellFormed) (operations : List Operation) :
    (e.run operations).graph.WellFormed :=
  run_induction e (fun e o hg => (e.step_after o).wellFormed hg) hgraph operations

def startAndCheck : Editor :=
  .opening
    { Workflow.draft "canvas" "Canvas" .event ⟨⟨2025, 1, 1⟩, 0, 0, 0, 0⟩ with
      graph :=
        { nodes := [standardStartNode, .fresh "check" .condition ⟨.ofNat 450, .ofNat 200⟩]
          edges := [⟨"first", "start-node", "check", none, none, none, false⟩] } }
    .standard .standard

/-- The start node may lead to another condition only after the one it leads to is deleted. -/
def redirection : List Operation :=
  [.connect ⟨"start-node", "check", none, none⟩,
    .addNode (.fresh "other" .condition ⟨.ofNat 450, .ofNat 600⟩),
    .connect ⟨"start-node", "other", none, none⟩, .deleteNode "check",
    .connect ⟨"start-node", "other", none, none⟩, .ensureStartNode]

theorem wellFormed_redirection :
    startAndCheck.graph.WellFormed
      ∧ (startAndCheck.run (redirection.take 3)).graph.edges.map Edge.target = ["check", "check"]
      ∧ (startAndCheck.run redirection).graph.edges.map Edge.target = ["other"]
      ∧ (startAndCheck.run redirection).graph.WellFormed := by
  have hgraph : startAndCheck.graph.WellFormed :=
    ⟨by decide, by decide, by decide, by decide, by decide, by decide⟩
  exact ⟨hgraph, by decide +kernel, by decide +kernel,
    wellFormed_run startAndCheck hgraph redirection⟩

end Editor

end SegmentFlow
