import SegmentFlow.Canvas.Report
/-!
# What a report contains

An issue is in the report for one of a few reasons. The texts of the issues carry labels that users
choose, so which reason it was is told by the severity, by how the text begins, and by the node.
-/

namespace SegmentFlow

theorem mem_issueIf {wrong : Bool} {severity : Severity} {message : String}
    {nodeId : Option String} {i : Issue} :
    i ∈ issueIf wrong severity message nodeId ↔ wrong = true ∧ i = ⟨message, severity, nodeId⟩ := by
  cases wrong <;> simp [issueIf]

/-- The warning that no edge leads to a node. -/
def Node.orphanWarning (n : Node) : Issue :=
  ⟨"Node \"" ++ n.label ++ "\" has no incoming connections", .warning, some n.id⟩

theorem Node.severity_of_mem_startIssues {n : Node} {i : Issue} (hi : i ∈ n.startIssues) :
    i.severity = .error := by
  rw [startIssues] at hi
  split at hi
  · rw [List.mem_singleton.1 hi]
  · rw [(mem_issueIf.1 hi).2]

theorem Node.severity_of_mem_conditionIssues {n : Node} {place : Nat} {c : Condition} {i : Issue}
    (hi : i ∈ n.conditionIssues place c) : i.severity = .error := by
  simp only [conditionIssues, List.mem_append, mem_issueIf] at hi
  rcases hi with (⟨-, rfl⟩ | ⟨-, rfl⟩) | ⟨-, rfl⟩ <;> rfl

namespace Graph

variable {g : Graph} {n : Node} {i : Issue}

theorem nodeId_of_mem_startCountIssues {count : Nat} (hi : i ∈ startCountIssues count) :
    i.nodeId = none := by
  match count with
  | 0 => rw [List.mem_singleton.1 hi]
  | 1 => exact absurd hi List.not_mem_nil
  | _ + 2 => rw [List.mem_singleton.1 hi]

theorem mem_nodeIssues :
    i ∈ g.nodeIssues n
      ↔ n.kind ≠ .start ∧ g.hasIncoming n.id = false ∧ i = n.orphanWarning
        ∨ n.kind = .condition ∧ i ∈ g.conditionNodeIssues n := by
  rw [nodeIssues, List.mem_append, mem_issueIf]
  by_cases hkind : n.kind = .condition
  · simp [hkind, Node.orphanWarning]
  · simp [hkind, Node.orphanWarning, and_assoc]

/-- What is wrong with a condition node itself keeps it from being saved, but for the branch that
may be left open. -/
theorem severity_of_mem_conditionNodeIssues (hi : i ∈ g.conditionNodeIssues n) :
    i.severity = .error
      ∨ i = ⟨"Condition node \"" ++ n.label ++ "\"" ++ " has no No branch connected", .warning,
          some n.id⟩ := by
  simp only [conditionNodeIssues, List.mem_append, mem_issueIf, List.mem_flatMap] at hi
  rcases hi with ((⟨-, rfl⟩ | ⟨-, rfl⟩) | ⟨-, rfl⟩) | ⟨⟨c, place⟩, -, hi⟩
  · exact .inl rfl
  · exact .inr rfl
  · exact .inl rfl
  · exact .inl (Node.severity_of_mem_conditionIssues hi)

theorem orphanWarning_not_mem_conditionNodeIssues {k : Node} :
    k.orphanWarning ∉ g.conditionNodeIssues n := by
  intro hmem
  rcases severity_of_mem_conditionNodeIssues hmem with herror | hopen
  · exact nomatch herror
  · have hfirst := congrArg (fun i => i.message.toList.head?) hopen
    simp [Node.orphanWarning] at hfirst

/-- The warning about a node is in the report exactly if no edge leads to it, or to another node of
that id and label. -/
theorem orphanWarning_mem_report_iff :
    n.orphanWarning ∈ g.report.issues
      ↔ ∃ k ∈ g.nodes, k.kind ≠ .start ∧ g.hasIncoming k.id = false
        ∧ n.orphanWarning = k.orphanWarning := by
  simp only [report, List.mem_append, List.mem_flatMap, mem_nodeIssues]
  constructor
  · rintro ((hcount | ⟨k, -, hstart⟩) | ⟨k, hk, hnode | ⟨-, hcondition⟩⟩)
    · exact nomatch nodeId_of_mem_startCountIssues hcount
    · exact nomatch Node.severity_of_mem_startIssues hstart
    · exact ⟨k, hk, hnode⟩
    · exact absurd hcondition orphanWarning_not_mem_conditionNodeIssues
  · rintro ⟨k, hk, hnode⟩
    exact .inr ⟨k, hk, .inl hnode⟩

end Graph

end SegmentFlow
