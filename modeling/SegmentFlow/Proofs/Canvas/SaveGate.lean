import SegmentFlow.Proofs.Canvas.Issues
import SegmentFlow.Proofs.Condition.Clauses
/-!
# What keeps a graph from being saved

A report is put together from the issues of its parts, and it has no error exactly if none of the
parts has. So each check is read once, as the condition under which it finds no error. What is only
warned of drops out on the way: whether there is one start node or more, whether anything leads to a
node, and whether the No branch of a condition is drawn.
-/

namespace SegmentFlow

/-! ### What has to be there -/

/-- A text that is there and not empty. -/
def IsGiven (s : Option String) : Prop :=
  ∃ t, s = some t ∧ t ≠ ""

/-- A condition that says where its data comes from, which field it is about and, if its operator
takes a value, which value. -/
structure Condition.IsComplete (c : Condition) : Prop where
  dataSource : IsGiven c.dataSource
  field : c.field ≠ ""
  value : (c.operator = .isEmpty ∨ c.operator = .isNotEmpty) ∨ c.value ≠ .text ""

/-- The config of the node reads as that of a start node, and it names a data source. -/
def Node.NamesDataSource (n : Node) : Prop :=
  ∃ config, n.data.startConfig? = some config ∧ IsGiven config.dataSource

namespace Graph

/-- A condition node whose Yes branch is drawn and whose conditions, one at least, are complete. -/
structure Decides (g : Graph) (n : Node) : Prop where
  yesBranch : ∃ e ∈ g.edges, e.source = n.id ∧ e.sourceHandle = some "yes"
  conditions_ne : n.data.conditions ≠ []
  conditions : ∀ c ∈ n.data.conditions, c.IsComplete

def HasStart (g : Graph) : Prop :=
  ∃ n ∈ g.nodes, n.kind = .start

structure Savable (g : Graph) : Prop where
  hasStart : g.HasStart
  starts : ∀ n ∈ g.nodes, n.kind = .start → n.NamesDataSource
  conditions : ∀ n ∈ g.nodes, n.kind = .condition → g.Decides n

end Graph

/-! ### Lists of issues without an error -/

def ErrorFree (issues : List Issue) : Prop :=
  ∀ i ∈ issues, i.severity ≠ .error

variable {g : Graph} {n : Node} {c : Condition}

theorem Report.isValid_iff {r : Report} : r.isValid = true ↔ ErrorFree r.issues := by
  simp [isValid, errors, ErrorFree]

theorem errorFree_append {is js : List Issue} :
    ErrorFree (is ++ js) ↔ ErrorFree is ∧ ErrorFree js :=
  List.forall_mem_append

theorem errorFree_flatMap {α : Type} {as : List α} {f : α → List Issue} :
    ErrorFree (as.flatMap f) ↔ ∀ a ∈ as, ErrorFree (f a) := by
  simp only [ErrorFree, List.mem_flatMap]
  exact ⟨fun h a ha i hi => h i ⟨a, ha, hi⟩, fun h i ⟨a, ha, hi⟩ => h a ha i hi⟩

theorem errorFree_error {wrong : Bool} {message : String} {nodeId : Option String} :
    ErrorFree (issueIf wrong .error message nodeId) ↔ wrong = false := by
  cases wrong <;> simp [ErrorFree, issueIf]

theorem errorFree_warning (wrong : Bool) (message : String) (nodeId : Option String) :
    ErrorFree (issueIf wrong .warning message nodeId) := by
  cases wrong <;> simp [ErrorFree, issueIf]

/-! ### The checks -/

theorem isMissing_eq_false_iff {s : Option String} : isMissing s = false ↔ IsGiven s := by
  cases s <;> simp [isMissing, IsGiven]

theorem Node.errorFree_startIssues : ErrorFree n.startIssues ↔ n.NamesDataSource := by
  rw [startIssues, NamesDataSource]
  cases n.data.startConfig? with
  | none => simp [ErrorFree]
  | some config => simp [errorFree_error, isMissing_eq_false_iff]

theorem Node.errorFree_conditionIssues {place : Nat} :
    ErrorFree (n.conditionIssues place c) ↔ c.IsComplete := by
  have hvalue : (!c.operator.isUnary && c.value.isBlank) = false
      ↔ (c.operator = .isEmpty ∨ c.operator = .isNotEmpty) ∨ c.value ≠ .text "" := by
    rw [← Operator.isUnary_iff, ConditionValue.isBlank]
    cases c.operator.isUnary <;> simp
  simp only [conditionIssues, errorFree_append, errorFree_error, isMissing_eq_false_iff, hvalue,
    decide_eq_false_iff_not]
  constructor
  · rintro ⟨⟨hsource, hfield⟩, hvalue⟩
    exact ⟨hsource, hfield, hvalue⟩
  · intro h
    exact ⟨⟨h.dataSource, h.field⟩, h.value⟩

namespace Graph

theorem leavesBy_iff {id handle : String} :
    g.leavesBy id handle = true
      ↔ ∃ e ∈ g.edges, e.source = id ∧ e.sourceHandle = some handle := by
  simp [leavesBy, outgoing, Edge.leavesBy]

theorem errorFree_conditionNodeIssues :
    ErrorFree (g.conditionNodeIssues n) ↔ g.Decides n := by
  have hplaces : (∀ p ∈ n.data.conditions.zipIdx 1, p.1.IsComplete)
      ↔ ∀ c ∈ n.data.conditions, c.IsComplete := by
    rw [← List.forall_mem_map (f := Prod.fst) (P := Condition.IsComplete), List.zipIdx_map_fst]
  simp only [conditionNodeIssues, errorFree_append, errorFree_flatMap, errorFree_error,
    errorFree_warning, and_true, Node.errorFree_conditionIssues, Bool.not_eq_false', leavesBy_iff,
    List.isEmpty_eq_false_iff, hplaces]
  constructor
  · rintro ⟨⟨hyes, hne⟩, hcomplete⟩
    exact ⟨hyes, hne, hcomplete⟩
  · intro h
    exact ⟨⟨h.yesBranch, h.conditions_ne⟩, h.conditions⟩

theorem errorFree_nodeIssues :
    ErrorFree (g.nodeIssues n) ↔ (n.kind = .condition → g.Decides n) := by
  rw [nodeIssues, errorFree_append, iff_true_intro (errorFree_warning _ _ _), true_and]
  split
  · next hkind => rw [errorFree_conditionNodeIssues, iff_true_intro hkind, true_imp_iff]
  · next hkind => simp [ErrorFree, hkind]

theorem errorFree_startCountIssues :
    ErrorFree (startCountIssues (g.nodesOfKind .start).length) ↔ g.HasStart := by
  have hempty : g.HasStart ↔ g.nodesOfKind .start ≠ [] := by simp [HasStart, nodesOfKind]
  rw [hempty]
  cases g.nodesOfKind .start with
  | nil => simp [startCountIssues, ErrorFree]
  | cons s ss => cases ss <;> simp [startCountIssues, ErrorFree]

theorem errorFree_report : ErrorFree g.report.issues ↔ g.Savable := by
  have hstarts : (∀ n ∈ g.nodesOfKind .start, n.NamesDataSource)
      ↔ ∀ n ∈ g.nodes, n.kind = .start → n.NamesDataSource := by simp [nodesOfKind]
  simp only [report, errorFree_append, errorFree_flatMap, errorFree_startCountIssues,
    Node.errorFree_startIssues, errorFree_nodeIssues, hstarts]
  constructor
  · rintro ⟨⟨hstart, hnamed⟩, hconditions⟩
    exact ⟨hstart, hnamed, hconditions⟩
  · intro h
    exact ⟨⟨h.hasStart, h.starts⟩, h.conditions⟩

/-! ### The gate -/

/-- Of the edges only the Yes branches matter. -/
theorem decides_congr {g' : Graph}
    (h : ∀ e, e.sourceHandle = some "yes" → (e ∈ g'.edges ↔ e ∈ g.edges)) :
    g'.Decides n ↔ g.Decides n := by
  have hyes : (∃ e ∈ g'.edges, e.source = n.id ∧ e.sourceHandle = some "yes")
      ↔ ∃ e ∈ g.edges, e.source = n.id ∧ e.sourceHandle = some "yes" :=
    exists_congr fun e => ⟨fun ⟨he, hleaves⟩ => ⟨(h e hleaves.2).1 he, hleaves⟩,
      fun ⟨he, hleaves⟩ => ⟨(h e hleaves.2).2 he, hleaves⟩⟩
  exact ⟨fun hn => ⟨hyes.1 hn.yesBranch, hn.conditions_ne, hn.conditions⟩,
    fun hn => ⟨hyes.2 hn.yesBranch, hn.conditions_ne, hn.conditions⟩⟩

/-- The graph with nothing drawn but the Yes branches. -/
def yesBranches (g : Graph) : Graph :=
  { g with edges := g.edges.filter fun e => e.sourceHandle = some "yes" }

theorem savable_yesBranches : g.yesBranches.Savable ↔ g.Savable := by
  have hdecides (n : Node) : g.yesBranches.Decides n ↔ g.Decides n :=
    decides_congr fun e he => by simp [yesBranches, he]
  exact ⟨fun h => ⟨h.hasStart, h.starts, fun n hn hkind => (hdecides n).1 (h.conditions n hn hkind)⟩,
    fun h => ⟨h.hasStart, h.starts, fun n hn hkind => (hdecides n).2 (h.conditions n hn hkind)⟩⟩

/-- A further start node that names its data source makes no difference. -/
theorem savable_insert_start {before after : List Node} {s : Node}
    (hnodes : g.nodes = before ++ after) (hstart : g.HasStart) (hkind : s.kind = .start)
    (hsource : s.NamesDataSource) :
    ({ g with nodes := before ++ s :: after } : Graph).Savable ↔ g.Savable := by
  have hmem {n : Node} : n ∈ before ++ s :: after ↔ n = s ∨ n ∈ g.nodes := by
    rw [hnodes, List.mem_append, List.mem_append, List.mem_cons, or_left_comm]
  have hdecides (n : Node) :
      ({ g with nodes := before ++ s :: after } : Graph).Decides n ↔ g.Decides n :=
    decides_congr fun e _ => Iff.rfl
  obtain ⟨s', hs', hkind'⟩ := hstart
  constructor
  · intro h
    exact ⟨⟨s', hs', hkind'⟩, fun n hn => h.starts n (hmem.2 (.inr hn)),
      fun n hn hcondition => (hdecides n).1 (h.conditions n (hmem.2 (.inr hn)) hcondition)⟩
  · intro h
    refine ⟨⟨s', hmem.2 (.inr hs'), hkind'⟩, fun n hn => ?_, fun n hn hcondition => ?_⟩
    · rcases hmem.1 hn with rfl | hn
      · exact fun _ => hsource
      · exact h.starts n hn
    · rcases hmem.1 hn with rfl | hn
      · exact nomatch hkind.symm.trans hcondition
      · exact (hdecides n).2 (h.conditions n hn hcondition)

/-- A graph may be saved exactly if it has a start node, all of its start nodes name their data
source, and all of its condition nodes decide something. Taking out every edge that is no Yes branch
does not change the answer, however many nodes nothing leads to then, and nor does a further start
node that names its data source. -/
theorem report_isValid_iff_savable (g : Graph) :
    (g.report.isValid = true ↔ g.Savable)
      ∧ g.yesBranches.report.isValid = g.report.isValid
      ∧ ∀ before s after, g.nodes = before ++ after → g.HasStart → s.kind = .start →
          s.NamesDataSource →
          ({ g with nodes := before ++ s :: after } : Graph).report.isValid = g.report.isValid := by
  have hvalid (g : Graph) : g.report.isValid = true ↔ g.Savable :=
    Report.isValid_iff.trans errorFree_report
  refine ⟨hvalid g, ?_, fun before s after hnodes hstart hkind hsource => ?_⟩
  · rw [Bool.eq_iff_iff, hvalid, hvalid, savable_yesBranches]
  · rw [Bool.eq_iff_iff, hvalid, hvalid, savable_insert_start hnodes hstart hkind hsource]

def startOf (id dataSource : String) : Node :=
  { Node.fresh id .start ⟨.ofNat 0, .ofNat 0⟩ with
    data :=
      { NodeData.labelled id with config := some (.obj [("data_source", .str dataSource)]) } }

/-- Nothing leads to the condition, its Yes branch ends nowhere, and it has no No branch. -/
def oneDecision : Graph where
  nodes :=
    [startOf "start" "CRM",
      (Node.fresh "check" .condition ⟨.ofNat 100, .ofNat 0⟩).withConditions
        [⟨"c", some "CRM", none, "email", .text, .isEmpty, .text "", none, none⟩]]
  edges := [⟨"e", "check", "nowhere", some yesHandle, none, none, true⟩]

theorem isValid_oneDecision_twoStarts :
    oneDecision.HasStart ∧ (startOf "second" "shop").NamesDataSource ∧ oneDecision.Savable
      ∧ ({ oneDecision with
            nodes := startOf "second" "shop" :: oneDecision.nodes } : Graph).report.isValid = true
      ∧ ({ oneDecision with
            nodes := startOf "second" "" :: oneDecision.nodes } : Graph).report.isValid = false := by
  have hvalid : oneDecision.report.isValid = true := by decide +kernel
  have hstart : oneDecision.HasStart := ⟨_, List.mem_cons_self, rfl⟩
  have hsource : (startOf "second" "shop").NamesDataSource :=
    Node.errorFree_startIssues.1 (by rw [ErrorFree]; decide +kernel)
  refine ⟨hstart, hsource, (report_isValid_iff_savable _).1.1 hvalid, ?_, by decide +kernel⟩
  exact ((report_isValid_iff_savable oneDecision).2.2 [] (startOf "second" "shop") oneDecision.nodes
    rfl hstart rfl hsource).trans hvalid

end Graph

end SegmentFlow
