import SegmentFlow.Proofs.Canvas.Direction
import SegmentFlow.Proofs.Editor.Steps
/-!
# Cycles

Only drawing an edge can close a cycle, and it cannot while all edges lead from left to right. But
that is checked for the new edge alone: moving a node may turn the edges at it round, and then a
further edge from left to right may close a cycle.
-/

namespace SegmentFlow

theorem Graph.mem_nodes_updateNode {g : Graph} {id : String} {change : Node → Node} {k : Node}
    (hk : k ∈ (g.updateNode id change).nodes) : k ∈ g.nodes ∨ ∃ n ∈ g.nodes, k = change n := by
  rw [updateNode] at hk
  dsimp only at hk
  revert hk
  induction g.nodes with
  | nil => exact .inl
  | cons n ns ih =>
      intro hk
      rw [updateNode.go] at hk
      split at hk
      · rcases List.mem_cons.1 hk with rfl | hk
        · exact .inr ⟨n, List.mem_cons_self, rfl⟩
        · exact .inl (List.mem_cons_of_mem _ hk)
      · rcases List.mem_cons.1 hk with rfl | hk
        · exact .inl List.mem_cons_self
        · rcases ih hk with hmem | ⟨p, hp, rfl⟩
          · exact .inl (List.mem_cons_of_mem _ hmem)
          · exact .inr ⟨p, List.mem_cons_of_mem _ hp, rfl⟩

namespace Editor

namespace Operation

/-- The position that an operation brings along. -/
def position? : Operation → Option Position
  | addNode n => some n.position
  | moveNode _ p => some p
  | _ => none

def IsFinite (o : Operation) : Prop :=
  ∀ p ∈ o.position?, p.IsFinite

instance (o : Operation) : Decidable o.IsFinite :=
  inferInstanceAs (Decidable (∀ p ∈ o.position?, p.IsFinite))

end Operation

theorem isFinite_standardStartNode : standardStartNode.position.IsFinite := by
  decide +kernel

variable {m : Geometry} {g g' : Graph} {o : Operation}

theorem Step.isFinite (hstep : Step m g o g') (hg : g.IsFinite) (ho : o.IsFinite) :
    g'.IsFinite := by
  cases hstep with
  | kept => exact hg
  | nodeAdded hnew =>
      intro k hk
      rcases List.mem_append.1 hk with hk | hk
      · exact hg k hk
      · exact List.mem_singleton.1 hk ▸ ho _ rfl
  | startAdded hnew =>
      intro k hk
      rcases List.mem_append.1 hk with hk | hk
      · exact hg k hk
      · exact List.mem_singleton.1 hk ▸ isFinite_standardStartNode
  | nodeMoved id p =>
      intro k hk
      rcases Graph.mem_nodes_updateNode hk with hk | ⟨n, -, rfl⟩
      · exact hg k hk
      · exact ho p rfl
  | conditionsSet id cs =>
      intro k hk
      rcases Graph.mem_nodes_updateNode hk with hk | ⟨n, hn, rfl⟩
      · exact hg k hk
      · exact hg n hn
  | nodeDeleted => exact fun k hk => hg k (List.mem_of_mem_eraseP hk)
  | edgeDrawn => exact hg
  | edgeDeleted => exact hg

theorem leftToRight_drawEdge (hg : g.LeftToRight) (hfinite : g.IsFinite)
    (hbuffer : Binary64.zero ≤ m.columnBuffer) {c : Connection} (hpass : m.check g c = .ok ()) :
    ({ g with edges := g.edges ++ [c.toEdge g] } : Graph).LeftToRight := by
  obtain ⟨source, target, hadmits⟩ := Geometry.check_eq_ok_iff.1 hpass
  intro e he
  rcases List.mem_append.1 he with he | he
  · exact hg e he
  · obtain rfl := List.mem_singleton.1 he
    exact ⟨source, hadmits.source_found, target, hadmits.target_found,
      hadmits.lt hbuffer hfinite⟩

theorem Step.acyclic (hstep : Step m g o g') (hg : g.Acyclic) (hfinite : g.IsFinite)
    (hbuffer : Binary64.zero ≤ m.columnBuffer)
    (hlayout : ∀ c, o = .connect c → m.check g c = .ok () → g.LeftToRight) : g'.Acyclic := by
  cases hstep with
  | edgeDrawn hpass =>
      exact (leftToRight_drawEdge (hlayout _ rfl hpass) hfinite hbuffer hpass).acyclic
  | nodeDeleted => exact hg.of_edges_subset List.filter_sublist.subset
  | edgeDeleted => exact hg.of_edges_subset List.eraseP_subset
  | kept | nodeAdded | startAdded | nodeMoved | conditionsSet => exact hg

/-- No cycle arises as long as all edges lead from left to right whenever another one is drawn. What
moving, adding and deleting does to the layout between that does not matter. -/
theorem acyclic_run (e : Editor) (hbuffer : Binary64.zero ≤ e.geometry.columnBuffer)
    (hacyclic : e.graph.Acyclic) (hfinite : e.graph.IsFinite) (operations : List Operation)
    (hoperations : ∀ o ∈ operations, o.IsFinite)
    (hlayout : ∀ before c, before ++ [.connect c] <+: operations →
      e.geometry.check (e.run before).graph c = .ok () → (e.run before).graph.LeftToRight) :
    (e.run operations).graph.Acyclic := by
  induction operations generalizing e with
  | nil => exact hacyclic
  | cons o os ih =>
      have hstep := e.step_after o
      have ho := hoperations o List.mem_cons_self
      have hnow (c : Connection) (hconnect : o = .connect c)
          (hpass : e.geometry.check e.graph c = .ok ()) : e.graph.LeftToRight := by
        subst hconnect
        exact hlayout [] c (List.prefix_iff_eq_append.2 rfl) hpass
      refine ih (e.after o) ?_ (hstep.acyclic hacyclic hfinite hbuffer hnow)
        (hstep.isFinite hfinite ho) (fun o' ho' => hoperations o' (List.mem_cons_of_mem _ ho')) ?_
      · rw [geometry_after]
        exact hbuffer
      · intro before c hbefore hpass
        rw [geometry_after] at hpass
        exact hlayout (o :: before) c (List.cons_prefix_cons.2 ⟨rfl, hbefore⟩) hpass

def twoNodes : Editor :=
  .opening
    { Workflow.draft "canvas" "Canvas" .event ⟨⟨2025, 1, 1⟩, 0, 0, 0, 0⟩ with
      graph :=
        { nodes :=
            [.fresh "a" .action ⟨.ofNat 0, .ofNat 0⟩, .fresh "b" .action ⟨.ofNat 100, .ofNat 0⟩]
          edges := [] } }
    .standard .standard

theorem acyclic_twoNodes : twoNodes.graph.Acyclic :=
  Graph.LeftToRight.acyclic fun _ he => absurd he List.not_mem_nil

/-- Between two connections, a node is moved on to the right and another one is added. -/
def onToTheRight : List Operation :=
  [.connect ⟨"a", "b", none, none⟩, .moveNode "b" ⟨.ofNat 300, .ofNat 0⟩,
    .addNode (.fresh "c" .action ⟨.ofNat 500, .ofNat 0⟩), .connect ⟨"b", "c", none, none⟩]

theorem acyclic_onToTheRight :
    (∀ before c, before ++ [.connect c] <+: onToTheRight →
        twoNodes.geometry.check (twoNodes.run before).graph c = .ok () →
          (twoNodes.run before).graph.LeftToRight)
      ∧ (twoNodes.run onToTheRight).graph.edges.length = 2
      ∧ (twoNodes.run onToTheRight).graph.Acyclic := by
  have hall : ∀ k < 4, (twoNodes.run (onToTheRight.take k)).graph.LeftToRight := by
    decide +kernel
  have hlayout (before : List Operation) (c : Connection)
      (hbefore : before ++ [.connect c] <+: onToTheRight) :
      (twoNodes.run before).graph.LeftToRight := by
    have hlength := hbefore.length_le
    rw [List.length_append, List.length_singleton] at hlength
    rw [List.prefix_iff_eq_take.1 ((List.prefix_append before _).trans hbefore)]
    exact hall before.length hlength
  refine ⟨fun before c hbefore _ => hlayout before c hbefore, by decide +kernel, ?_⟩
  exact acyclic_run twoNodes (by decide +kernel) acyclic_twoNodes (by decide +kernel) onToTheRight
    (by decide +kernel) fun before c hbefore _ => hlayout before c hbefore

def nowhere : Editor :=
  twoNodes.after (.moveNode "a" ⟨.notANumber, .ofNat 0⟩)

/-- A coordinate that is not a number passes every comparison, the one with itself included. -/
theorem cyclic_nowhere : Binary64.zero ≤ nowhere.geometry.columnBuffer ∧ nowhere.graph.LeftToRight
    ∧ ¬ (nowhere.after (.connect ⟨"a", "a", none, none⟩)).graph.Acyclic := by
  have hedge : ∃ e ∈ (nowhere.after (.connect ⟨"a", "a", none, none⟩)).graph.edges,
      e.source = "a" ∧ e.target = "a" := by decide +kernel
  exact ⟨by decide +kernel, by decide +kernel, fun hacyclic => hacyclic "a" (.single hedge)⟩

/-! ### A cycle that a move makes possible

Both edges lead from left to right when they are drawn. -/

def thereAndBack : List Operation :=
  [.connect ⟨"a", "b", none, none⟩, .moveNode "b" ⟨.ofInt (-100), .ofNat 0⟩,
    .connect ⟨"b", "a", none, none⟩]

theorem cyclic_thereAndBack :
    Binary64.zero ≤ twoNodes.geometry.columnBuffer ∧ twoNodes.graph.Acyclic
      ∧ twoNodes.graph.IsFinite ∧ (∀ o ∈ thereAndBack, o.IsFinite)
      ∧ ¬ (twoNodes.run thereAndBack).graph.Acyclic := by
  have hends : (twoNodes.run thereAndBack).graph.edges.map (fun e => (e.source, e.target))
      = [("a", "b"), ("b", "a")] := by decide +kernel
  have hleads {a b : String} (hmem : (a, b) ∈ [("a", "b"), ("b", "a")]) :
      (twoNodes.run thereAndBack).graph.Leads a b := by
    rw [← hends] at hmem
    obtain ⟨e, he, heq⟩ := List.mem_map.1 hmem
    exact ⟨e, he, congrArg Prod.fst heq, congrArg Prod.snd heq⟩
  have hthere := hleads (a := "a") (b := "b") (by decide)
  have hback := hleads (a := "b") (b := "a") (by decide)
  refine ⟨by decide +kernel, acyclic_twoNodes, by decide +kernel, by decide +kernel, ?_⟩
  exact fun hacyclic => hacyclic "a" (.tail (.single hthere) hback)

end Editor

end SegmentFlow
