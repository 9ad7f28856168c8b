import Mathlib.Logic.Relation
import SegmentFlow.Proofs.Binary64.Order
import SegmentFlow.Proofs.Canvas.Admission
/-!
# The direction of edges

Nothing looks for cycles when an edge is drawn. What is checked is that the target lies to the right
of the source, and as long as all edges lead from left to right there is no way back.
-/

namespace SegmentFlow

def Position.IsFinite (p : Position) : Prop :=
  p.x.isFinite = true ∧ p.y.isFinite = true

instance (p : Position) : Decidable p.IsFinite :=
  inferInstanceAs (Decidable (_ ∧ _))

namespace Graph

variable {g g' : Graph}

/-- All nodes have finite coordinates. -/
def IsFinite (g : Graph) : Prop :=
  ∀ n ∈ g.nodes, n.position.IsFinite

instance (g : Graph) : Decidable g.IsFinite :=
  inferInstanceAs (Decidable (∀ n ∈ g.nodes, n.position.IsFinite))

/-- There is an edge between two ids. -/
def Leads (g : Graph) (a b : String) : Prop :=
  ∃ e ∈ g.edges, e.source = a ∧ e.target = b

/-- No path leads back to where it starts. -/
def Acyclic (g : Graph) : Prop :=
  ∀ id, ¬ Relation.TransGen g.Leads id id

/-- Every edge leads from a node to one that lies to the right of it. -/
def LeftToRight (g : Graph) : Prop :=
  ∀ e ∈ g.edges, ∃ source ∈ g.node? e.source, ∃ target ∈ g.node? e.target,
    source.position.x < target.position.x

instance (g : Graph) : Decidable g.LeftToRight :=
  inferInstanceAs (Decidable (∀ e ∈ g.edges, ∃ source ∈ g.node? e.source,
    ∃ target ∈ g.node? e.target, source.position.x < target.position.x))

theorem Acyclic.of_edges_subset (hg : g.Acyclic) (hedges : g'.edges ⊆ g.edges) : g'.Acyclic := by
  intro id hcycle
  have hleads (a b : String) (h : g'.Leads a b) : g.Leads a b := by
    obtain ⟨e, he, hends⟩ := h
    exact ⟨e, hedges he, hends⟩
  exact hg id (Relation.TransGen.mono hleads id id hcycle)

theorem LeftToRight.lt_of_path (hg : g.LeftToRight) {a b : String}
    (hpath : Relation.TransGen g.Leads a b) :
    ∃ source ∈ g.node? a, ∃ target ∈ g.node? b, source.position.x < target.position.x := by
  induction hpath with
  | single hleads =>
      obtain ⟨e, he, rfl, rfl⟩ := hleads
      exact hg e he
  | tail _ hleads ih =>
      obtain ⟨source, hsource, middle, hmiddle, hlt⟩ := ih
      obtain ⟨e, he, rfl, rfl⟩ := hleads
      obtain ⟨middle', hmiddle', target, htarget, hlt'⟩ := hg e he
      obtain rfl := Option.mem_unique hmiddle hmiddle'
      exact ⟨source, hsource, target, htarget, Binary64.lt_trans hlt hlt'⟩

theorem LeftToRight.acyclic (hg : g.LeftToRight) : g.Acyclic := by
  intro id hcycle
  obtain ⟨source, hsource, target, htarget, hlt⟩ := hg.lt_of_path hcycle
  obtain rfl := Option.mem_unique hsource htarget
  exact Binary64.lt_irrefl _ hlt

end Graph

namespace Geometry

variable {m : Geometry} {g : Graph} {c : Connection} {source target : Node}

/-- The column of a target begins to the right of its source. -/
theorem Admits.lt (hadmits : m.Admits g c source target) (hbuffer : Binary64.zero ≤ m.columnBuffer)
    (hfinite : g.IsFinite) : source.position.x < target.position.x := by
  have hsource := hfinite source (Graph.mem_of_node?_eq_some hadmits.source_found)
  have htarget := hfinite target (Graph.mem_of_node?_eq_some hadmits.target_found)
  exact Binary64.lt_of_le_of_not_le (Binary64.le_add_of_nonneg hsource.1 hbuffer) hadmits.column
    htarget.1

end Geometry

end SegmentFlow
