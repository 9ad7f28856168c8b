import Mathlib.Order.WellFoundedSet
import SegmentFlow.Proofs.Canvas.Direction
import SegmentFlow.Proofs.Canvas.Issues
/-!
# Nodes that are reached

The report looks at one node at a time, and warns of a node that no edge leads to unless it is a start
node. Where all edges lead from left to right, that tells whether all nodes are reached: going back
along edges leads further and further to the left, so it ends, and it can only end at a start node.
-/

namespace SegmentFlow

/-- The one node lies to the left of the other. -/
def Node.LeftOf (a b : Node) : Prop :=
  a.position.x < b.position.x

instance : IsStrictOrder Node Node.LeftOf where
  irrefl a := Binary64.lt_irrefl a.position.x
  trans _ _ _ := Binary64.lt_trans

namespace Graph

variable {g : Graph} {n : Node}

/-- Following edges forward leads from a start node to the node. -/
def Reached (g : Graph) (n : Node) : Prop :=
  ∃ s ∈ g.nodesOfKind .start, Relation.ReflTransGen g.Leads s.id n.id

theorem mem_nodesOfKind {kind : NodeKind} :
    n ∈ g.nodesOfKind kind ↔ n ∈ g.nodes ∧ n.kind = kind := by
  simp [nodesOfKind]

theorem hasIncoming_iff {id : String} : g.hasIncoming id = true ↔ ∃ a, g.Leads a id := by
  rw [hasIncoming, List.any_eq_true]
  constructor
  · rintro ⟨e, he, hid⟩
    exact ⟨e.source, e, he, rfl, of_decide_eq_true hid⟩
  · rintro ⟨a, e, he, -, hid⟩
    exact ⟨e, he, decide_eq_true hid⟩

/-- An edge that leads to a node comes from one on its left. -/
theorem LeftToRight.exists_leftOf (hg : g.LeftToRight) (hids : (g.nodes.map Node.id).Nodup)
    (hn : n ∈ g.nodes) (hincoming : g.hasIncoming n.id = true) :
    ∃ k ∈ g.nodes, k.LeftOf n ∧ g.Leads k.id n.id := by
  obtain ⟨a, e, he, rfl, htarget⟩ := hasIncoming_iff.1 hincoming
  obtain ⟨source, hsource, target, hfound, hlt⟩ := hg e he
  rw [htarget, node?_eq_some hids hn] at hfound
  obtain rfl := Option.some.inj hfound
  exact ⟨source, mem_of_node?_eq_some hsource, hlt, e, he, (id_of_node?_eq_some hsource).symm,
    htarget⟩

/-- From a node that is not reached one could go back to the left forever. -/
theorem LeftToRight.reached (hg : g.LeftToRight) (hids : (g.nodes.map Node.id).Nodup)
    (hincoming : ∀ n ∈ g.nodes, n.kind ≠ .start → g.hasIncoming n.id = true) (hn : n ∈ g.nodes) :
    g.Reached n := by
  have hleft : {k | k ∈ g.nodes}.WellFoundedOn Node.LeftOf :=
    (List.finite_toSet g.nodes).wellFoundedOn
  refine hleft.induction hn fun n hn ih => ?_
  by_cases hkind : n.kind = .start
  · exact ⟨n, mem_nodesOfKind.2 ⟨hn, hkind⟩, .refl⟩
  · obtain ⟨k, hk, hlt, hleads⟩ := hg.exists_leftOf hids hn (hincoming n hn hkind)
    obtain ⟨s, hs, hpath⟩ := ih k hk hlt
    exact ⟨s, hs, hpath.tail hleads⟩

theorem Reached.kind_or_hasIncoming (hreached : g.Reached n) (hids : (g.nodes.map Node.id).Nodup)
    (hn : n ∈ g.nodes) : n.kind = .start ∨ g.hasIncoming n.id = true := by
  obtain ⟨s, hs, hpath⟩ := hreached
  rw [mem_nodesOfKind] at hs
  rcases hpath.cases_tail with hid | ⟨a, -, hleads⟩
  · have hfound := node?_eq_some hids hs.1
    rw [← hid, node?_eq_some hids hn] at hfound
    obtain rfl := Option.some.inj hfound
    exact .inl hs.2
  · exact .inr (hasIncoming_iff.2 ⟨a, hleads⟩)

/-- The report warns of no node that nothing leads to exactly if all nodes are reached. -/
theorem no_orphanWarning_iff_reached (hids : (g.nodes.map Node.id).Nodup)
    (hlayout : g.LeftToRight) :
    (∀ n ∈ g.nodes, n.orphanWarning ∉ g.report.issues) ↔ ∀ n ∈ g.nodes, g.Reached n := by
  constructor
  · intro hquiet n hn
    refine hlayout.reached hids (fun k hk hkind => ?_) hn
    by_contra hnone
    exact hquiet k hk (orphanWarning_mem_report_iff.2 ⟨k, hk, hkind, eq_false_of_ne_true hnone, rfl⟩)
  · intro hreached n hn hwarned
    obtain ⟨k, hk, hkind, hnone, -⟩ := orphanWarning_mem_report_iff.1 hwarned
    rcases (hreached k hk).kind_or_hasIncoming hids hk with hstart | hincoming
    · exact hkind hstart
    · exact Bool.eq_false_iff.1 hnone hincoming

/-- Two branches of a condition come together again, and the last node is listed first. -/
def branches : Graph where
  nodes :=
    [.fresh "end" .step ⟨.ofNat 600, .ofNat 0⟩, .fresh "start" .start ⟨.ofInt (-50), .ofNat 0⟩,
      .fresh "check" .condition ⟨.ofNat 200, .ofNat 0⟩,
      .fresh "mail" .action ⟨.ofNat 400, .ofNat 300⟩]
  edges :=
    [⟨"4", "mail", "end", none, none, none, true⟩, ⟨"1", "start", "check", none, none, none, true⟩,
      ⟨"2", "check", "end", some yesHandle, none, none, true⟩,
      ⟨"3", "check", "mail", some noHandle, none, none, true⟩]

theorem reached_branches :
    (branches.nodes.map Node.id).Nodup ∧ branches.LeftToRight
      ∧ (∀ n ∈ branches.nodes, n.orphanWarning ∉ branches.report.issues)
      ∧ ∀ n ∈ branches.nodes, branches.Reached n := by
  have hids : (branches.nodes.map Node.id).Nodup := by decide
  have hlayout : branches.LeftToRight := by decide +kernel
  have hquiet : ∀ n ∈ branches.nodes, n.orphanWarning ∉ branches.report.issues := by
    decide +kernel
  exact ⟨hids, hlayout, hquiet, (no_orphanWarning_iff_reached hids hlayout).1 hquiet⟩

end Graph

end SegmentFlow
