import Mathlib.Data.List.Flatten
import SegmentFlow.Proofs.Canvas.SaveGate
/-!
# More edges, fewer issues

A report asks three things of the edges of a graph: whether one leads to a node, and whether one
leaves it by the Yes and by the No handle. An issue is there for the answer no, and more edges can only
turn a no into a yes. So the report loses issues and gains none, and those that are left keep their
order, since the nodes are gone through as before.
-/

namespace SegmentFlow

theorem issueIf_sublist {wrong wrong' : Bool} (hwrong : wrong' = true → wrong = true)
    (severity : Severity) (message : String) (nodeId : Option String) :
    (issueIf wrong' severity message nodeId).Sublist (issueIf wrong severity message nodeId) := by
  cases wrong' with
  | false => exact List.nil_sublist _
  | true =>
      obtain rfl : wrong = true := hwrong rfl
      exact List.Sublist.refl _

theorem Report.isValid_of_sublist {r r' : Report} (hissues : r'.issues.Sublist r.issues)
    (hvalid : r.isValid = true) : r'.isValid = true :=
  isValid_iff.2 fun i hi => isValid_iff.1 hvalid i (hissues.subset hi)

namespace Graph

section

variable {g g' : Graph} (hedges : g.edges ⊆ g'.edges) {id handle : String} (n : Node)
include hedges

theorem hasIncoming_eq_false_of_subset (hnone : g'.hasIncoming id = false) :
    g.hasIncoming id = false :=
  List.any_eq_false.2 fun e he => List.any_eq_false.1 hnone e (hedges he)

theorem leavesBy_eq_false_of_subset (hnone : g'.leavesBy id handle = false) :
    g.leavesBy id handle = false := by
  have houtgoing : g.outgoing id ⊆ g'.outgoing id := List.filter_subset _ hedges
  exact List.any_eq_false.2 fun e he => List.any_eq_false.1 hnone e (houtgoing he)

theorem conditionNodeIssues_sublist :
    (g'.conditionNodeIssues n).Sublist (g.conditionNodeIssues n) := by
  have hbranch (handle : String) (hopen : (!g'.leavesBy n.id handle) = true) :
      (!g.leavesBy n.id handle) = true := by
    rw [Bool.not_eq_true'] at hopen ⊢
    exact leavesBy_eq_false_of_subset hedges hopen
  rw [conditionNodeIssues, conditionNodeIssues]
  -- The conditions of the node are the same, so its other issues are too.
  refine ((List.Sublist.append ?_ ?_).append_right _).append_right _
  · exact issueIf_sublist (hbranch yesHandle) _ _ _
  · exact issueIf_sublist (hbranch noHandle) _ _ _

theorem nodeIssues_sublist : (g'.nodeIssues n).Sublist (g.nodeIssues n) := by
  rw [nodeIssues, nodeIssues]
  refine List.Sublist.append (issueIf_sublist ?_ _ _ _) ?_
  · intro horphan
    rw [Bool.and_eq_true, Bool.not_eq_true'] at horphan ⊢
    exact ⟨horphan.1, hasIncoming_eq_false_of_subset hedges horphan.2⟩
  · split
    · exact conditionNodeIssues_sublist hedges n
    · exact List.Sublist.refl _

theorem report_sublist (hnodes : g'.nodes = g.nodes) :
    g'.report.issues.Sublist g.report.issues := by
  have hstarts : g'.nodesOfKind .start = g.nodesOfKind .start := by
    rw [nodesOfKind, nodesOfKind, hnodes]
  rw [report, report, hstarts, hnodes]
  exact (List.Sublist.flatMap_right _ fun n _ => nodeIssues_sublist hedges n).append_left _

end

end Graph

end SegmentFlow
