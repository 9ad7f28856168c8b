import SegmentFlow.Proofs.Canvas.SaveGate
import SegmentFlow.Proofs.Editor.Changes
import SegmentFlow.Proofs.Editor.WellFormed
/-!
# Start nodes stay

No operation takes a start node away: deleting looks at the kind of the very node that it would
remove, and nothing else changes a kind. So a graph that has a start node once keeps one. Making sure
that there is one goes by the way of adding a node, though, under an id of its own, and is refused
like any other addition where that id is taken.
-/

namespace SegmentFlow

namespace Graph

variable {g g' : Graph}

def startCount (g : Graph) : Nat :=
  g.nodes.countP fun n => n.kind = .start

theorem hasStart_iff : g.HasStart ↔ 0 < g.startCount := by
  simp [HasStart, startCount, List.countP_pos_iff]

theorem HasStart.mono (h : g.HasStart) (hle : g.startCount ≤ g'.startCount) : g'.HasStart :=
  hasStart_iff.2 (Nat.lt_of_lt_of_le (hasStart_iff.1 h) hle)

theorem startCount_of_roles (hroles : g'.nodes.map Node.role = g.nodes.map Node.role) :
    g'.startCount = g.startCount := by
  have hkinds (g : Graph) :
      g.startCount = (g.nodes.map Node.role).countP fun r => r.2 = .start := by
    rw [startCount, List.countP_map]
    rfl
  rw [hkinds, hroles, ← hkinds]

theorem startCount_updateNode (id : String) {change : Node → Node}
    (hrole : ∀ n, (change n).role = n.role) : (g.updateNode id change).startCount = g.startCount :=
  startCount_of_roles (roles_updateNode id hrole)

theorem startCount_concat (n : Node) :
    ({ g with nodes := g.nodes ++ [n] } : Graph).startCount
      = g.startCount + if n.kind = .start then 1 else 0 := by
  simp [startCount, List.countP_append, List.countP_singleton]

/-- The node that is taken out is the first one with its id. -/
theorem startCount_eraseNode {id : String} {n : Node} (hnode : g.node? id = some n)
    (hkind : n.kind ≠ .start) : (g.eraseNode id).startCount = g.startCount := by
  obtain ⟨-, before, after, hsplit, hbefore⟩ := List.find?_eq_some_iff_append.1 hnode
  have herased : (g.eraseNode id).nodes = before ++ after := by
    change g.nodes.eraseP (fun n => n.id = id) = _
    rw [hsplit, List.eraseP_append_right _ (by simpa using hbefore), List.eraseP_cons,
      decide_eq_true (id_of_node?_eq_some hnode), cond_true]
  rw [startCount, startCount, herased, hsplit, List.countP_append, List.countP_append,
    List.countP_cons_of_neg (by simpa using hkind)]

end Graph

namespace Editor

variable {m : Geometry} {g g' : Graph} {o : Operation}

theorem Step.startCount_le (hstep : Step m g o g') : g.startCount ≤ g'.startCount := by
  cases hstep with
  | kept => exact Nat.le_refl _
  | nodeAdded => exact Graph.startCount_concat _ ▸ Nat.le_add_right _ _
  | startAdded => exact Graph.startCount_concat _ ▸ Nat.le_add_right _ _
  | nodeMoved =>
      refine Nat.le_of_eq (Graph.startCount_updateNode _ ?_).symm
      exact fun _ => rfl
  | conditionsSet =>
      refine Nat.le_of_eq (Graph.startCount_updateNode _ ?_).symm
      exact fun _ => rfl
  | nodeDeleted hnode hkind => exact Nat.le_of_eq (Graph.startCount_eraseNode hnode hkind).symm
  | edgeDrawn => exact Nat.le_refl _
  | edgeDeleted => exact Nat.le_refl _

theorem hasStart_run {e : Editor} (h : e.graph.HasStart) (operations : List Operation) :
    (e.run operations).graph.HasStart :=
  run_induction (P := fun e => e.graph.HasStart) e
    (fun e o hstart => hstart.mono (e.step_after o).startCount_le) h operations

/-- Making sure of a start node fails exactly where there is none and its id is taken. -/
theorem hasStart_after_ensureStartNode (e : Editor) :
    (e.after .ensureStartNode).graph.HasStart
      ↔ e.graph.HasStart ∨ e.graph.node? standardStartNode.id = none := by
  change e.ensureStartNode.1.graph.HasStart ↔ _
  have hempty : (e.graph.nodesOfKind .start).isEmpty = true ↔ ¬ e.graph.HasStart := by
    simp [Graph.HasStart, Graph.nodesOfKind]
  rw [ensureStartNode]
  split
  · next hnone =>
      have hnone := hempty.1 hnone
      rw [or_iff_right hnone]
      dsimp only
      rw [addNode]
      split
      · next htaken =>
          refine iff_of_false hnone fun hfree => ?_
          rw [hfree] at htaken
          exact Bool.false_ne_true htaken
      · next hfree =>
          refine iff_of_true ⟨standardStartNode, ?_, rfl⟩ (Option.not_isSome_iff_eq_none.1 hfree)
          exact List.mem_append_right _ List.mem_cons_self
  · next hsome =>
      have hstart : e.graph.HasStart := not_not.1 fun h => hsome (hempty.2 h)
      exact iff_of_true hstart (.inl hstart)

end Editor

/-! ### What validation says -/

/-- How the message of an issue begins. -/
def Issue.initial (i : Issue) : Option Char :=
  i.message.toList.head?

theorem Node.initial_of_mem_startIssues {n : Node} {i : Issue} (hi : i ∈ n.startIssues) :
    i.initial = some 'S' := by
  rw [startIssues] at hi
  split at hi
  · rw [List.mem_singleton.1 hi]
    simp [Issue.initial]
  · rw [(mem_issueIf.1 hi).2]
    simp [Issue.initial]

theorem Node.initial_of_mem_conditionIssues {n : Node} {place : Nat} {c : Condition} {i : Issue}
    (hi : i ∈ n.conditionIssues place c) : i.initial = some 'C' := by
  simp only [conditionIssues, List.mem_append, mem_issueIf] at hi
  rcases hi with (⟨-, rfl⟩ | ⟨-, rfl⟩) | ⟨-, rfl⟩ <;> simp [Issue.initial]

namespace Graph

variable {g : Graph} {n : Node} {i : Issue}

theorem initial_of_mem_conditionNodeIssues (hi : i ∈ g.conditionNodeIssues n) :
    i.initial = some 'C' := by
  simp only [conditionNodeIssues, List.mem_append, mem_issueIf, List.mem_flatMap] at hi
  rcases hi with ((⟨-, rfl⟩ | ⟨-, rfl⟩) | ⟨-, rfl⟩) | ⟨⟨c, place⟩, -, hi⟩
  · simp [Issue.initial]
  · simp [Issue.initial]
  · simp [Issue.initial]
  · exact Node.initial_of_mem_conditionIssues hi

theorem initial_of_mem_nodeIssues (hi : i ∈ g.nodeIssues n) :
    i.initial = some 'N' ∨ i.initial = some 'C' := by
  rcases mem_nodeIssues.1 hi with ⟨-, -, rfl⟩ | ⟨-, hi⟩
  · exact .inl (by simp [Issue.initial, Node.orphanWarning])
  · exact .inr (initial_of_mem_conditionNodeIssues hi)

/-- Only the count of the start nodes gives rise to that message. -/
theorem missing_start_mem_report_iff :
    (∃ i ∈ g.report.issues, i.message = "Workflow must have a start node") ↔ ¬ g.HasStart := by
  have hempty : g.HasStart ↔ g.nodesOfKind .start ≠ [] := by simp [HasStart, nodesOfKind]
  rw [hempty, not_not, report]
  constructor
  · rintro ⟨i, hi, hmessage⟩
    have hinitial : i.initial = some 'W' := by rw [Issue.initial, hmessage]; rfl
    simp only [List.mem_append, List.mem_flatMap] at hi
    rcases hi with (hcount | ⟨n, -, hstart⟩) | ⟨n, -, hnode⟩
    · cases hstarts : g.nodesOfKind .start with
      | nil => rfl
      | cons s ss =>
          rw [hstarts] at hcount
          cases ss with
          | nil => exact absurd hcount List.not_mem_nil
          | cons s' ss =>
              rw [List.mem_singleton.1 hcount] at hmessage
              exact absurd hmessage (by decide)
    · exact absurd ((Node.initial_of_mem_startIssues hstart).symm.trans hinitial) (by decide)
    · rcases initial_of_mem_nodeIssues hnode with h | h <;>
        exact absurd (h.symm.trans hinitial) (by decide)
  · intro hnone
    refine ⟨⟨"Workflow must have a start node", .error, none⟩, ?_, rfl⟩
    rw [hnone]
    exact List.mem_append_left _ (List.mem_append_left _ List.mem_cons_self)

end Graph

/-! ### Runs -/

namespace Editor

/-- Validated now, the workflow would be told to lack a start node. -/
def MissesStart (e : Editor) : Prop :=
  ∃ i ∈ (e.after .validate).issues, i.message = "Workflow must have a start node"

theorem missesStart_iff {e : Editor} : e.MissesStart ↔ ¬ e.graph.HasStart :=
  Graph.missing_start_mem_report_iff

/-- From the first call that makes sure of a start node on there is one, and no validation misses
it. -/
def StartEnsured (e : Editor) (operations : List Operation) : Prop :=
  ∀ before after, operations = before ++ .ensureStartNode :: after →
    (e.run operations).graph.HasStart ∧ ¬ (e.run operations).MissesStart

/-- No operation takes a start node away. After a call that makes sure of one, all later states have
one exactly if there was one before or the id that it would be given was free. -/
theorem start_nodes_stay (workflow : Workflow) (geometry : Geometry) (assembler : Compile.Assembler)
    (before after : List Operation) :
    (∀ (e : Editor) (o : Operation), e.graph.startCount ≤ (e.after o).graph.startCount)
      ∧ ((∀ mid, mid <+: after →
            (session workflow geometry assembler (before ++ .ensureStartNode :: mid)).graph.HasStart
              ∧ ¬ (session workflow geometry assembler
                  (before ++ .ensureStartNode :: mid)).MissesStart)
          ↔ (session workflow geometry assembler before).graph.HasStart
            ∨ (session workflow geometry assembler before).graph.node? "start-node" = none) := by
  refine ⟨fun e o => (e.step_after o).startCount_le, ?_⟩
  have hlater (mid : List Operation) :
      session workflow geometry assembler (before ++ .ensureStartNode :: mid)
        = ((session workflow geometry assembler before).after .ensureStartNode).run mid :=
    run_append _ before _
  simp only [hlater, missesStart_iff, not_not, and_self]
  refine Iff.trans ?_ (hasStart_after_ensureStartNode (session workflow geometry assembler before))
  constructor
  · intro h
    exact h [] List.nil_prefix
  · intro hstart mid _
    exact hasStart_run hstart mid

/-- An action has the id of the standard start node. -/
def startIdTaken : Editor :=
  .opening
    { Workflow.draft "canvas" "Canvas" .event ⟨⟨2025, 1, 1⟩, 0, 0, 0, 0⟩ with
      graph := { nodes := [.fresh "start-node" .action ⟨.ofNat 0, .ofNat 0⟩], edges := [] } }
    .standard .standard

theorem no_start_startIdTaken :
    (startIdTaken.run [.ensureStartNode]).graph.startCount = 0
      ∧ (startIdTaken.run [.ensureStartNode]).MissesStart
      ∧ ¬ startIdTaken.StartEnsured [.ensureStartNode] := by
  have hcount : (startIdTaken.run [.ensureStartNode]).graph.startCount = 0 := by decide +kernel
  have hnone : ¬ (startIdTaken.run [.ensureStartNode]).graph.HasStart := fun hstart =>
    absurd hcount (Nat.ne_of_gt (Graph.hasStart_iff.1 hstart))
  exact ⟨hcount, missesStart_iff.2 hnone, fun hensured => hnone (hensured [] [] rfl).1⟩

end Editor

end SegmentFlow
