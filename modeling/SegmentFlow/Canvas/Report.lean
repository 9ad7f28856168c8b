import SegmentFlow.Canvas.Wire
/-!
# Whether a graph may be saved

`Graph.report` lists what is wrong with the structure of a graph. Only errors keep it from being
saved; warnings do not.
-/

namespace SegmentFlow

inductive Severity where
  | error
  | warning
  deriving DecidableEq

namespace Severity

def all : List Severity := [error, warning]

def name : Severity → String
  | error => "error"
  | warning => "warning"

def ofName? (s : String) : Option Severity :=
  all.find? fun v => v.name = s

end Severity

structure Issue where
  message : String
  severity : Severity
  nodeId : Option String
  deriving DecidableEq

def Issue.display (i : Issue) : String :=
  "[" ++ i.severity.name ++ "] " ++ i.message
    ++ match i.nodeId with
      | some id => " (node: " ++ id ++ ")"
      | none => ""

structure Report where
  issues : List Issue
  deriving DecidableEq

namespace Report

def errors (r : Report) : List Issue :=
  r.issues.filter fun i => i.severity = .error

def warnings (r : Report) : List Issue :=
  r.issues.filter fun i => i.severity = .warning

/-- Nothing keeps the graph from being saved. -/
def isValid (r : Report) : Bool :=
  r.errors.isEmpty

/-- A number of things by name; nothing for none. -/
def counted (n : Nat) (thing : String) : List String :=
  if n = 0 then []
  else if n = 1 then ["1 " ++ thing]
  else [toString n ++ " " ++ thing ++ "s"]

def summary (r : Report) : String :=
  ", ".intercalate <|
    counted r.errors.length Severity.error.name ++ counted r.warnings.length Severity.warning.name

end Report

/-! ### The checks -/

def isMissing (s : Option String) : Bool :=
  s.getD "" = ""

/-- An issue if something is wrong, and none otherwise. -/
def issueIf (wrong : Bool) (severity : Severity) (message : String) (nodeId : Option String) :
    List Issue :=
  if wrong then [⟨message, severity, nodeId⟩] else []

namespace Node

def startIssues (n : Node) : List Issue :=
  match n.data.startConfig? with
  | none =>
    [⟨"Start node \"" ++ n.label ++ "\" is missing configuration", .error, some n.id⟩]
  | some config =>
    issueIf (isMissing config.dataSource) .error
      ("Start node \"" ++ n.label ++ "\" must specify a data source") (some n.id)

/-- What is wrong with the condition at a place of the node, counted from one. -/
def conditionIssues (n : Node) (place : Nat) (c : Condition) : List Issue :=
  let lacks (what : String) : String :=
    "Condition " ++ toString place ++ " in \"" ++ n.label ++ "\" must specify " ++ what
  issueIf (isMissing c.dataSource) .error (lacks "a data source") (some n.id)
    ++ issueIf (c.field = "") .error (lacks "a field") (some n.id)
    ++ issueIf (!c.operator.isUnary && c.value.isBlank) .error
      (lacks ("a value for operator \"" ++ c.operator.name ++ "\"")) (some n.id)

end Node

namespace Graph

def leavesBy (g : Graph) (id handle : String) : Bool :=
  (g.outgoing id).any fun e => e.leavesBy handle

def conditionNodeIssues (g : Graph) (n : Node) : List Issue :=
  let node := "Condition node \"" ++ n.label ++ "\""
  issueIf (!g.leavesBy n.id yesHandle) .error
      (node ++ " must have a Yes branch connected") (some n.id)
    ++ issueIf (!g.leavesBy n.id noHandle) .warning
      (node ++ " has no No branch connected") (some n.id)
    ++ issueIf n.data.conditions.isEmpty .error
      (node ++ " must have at least one condition") (some n.id)
    ++ (n.data.conditions.zipIdx 1).flatMap fun (c, place) => n.conditionIssues place c

def nodeIssues (g : Graph) (n : Node) : List Issue :=
  issueIf (n.kind ≠ .start && !g.hasIncoming n.id) .warning
      ("Node \"" ++ n.label ++ "\" has no incoming connections") (some n.id)
    ++ if n.kind = .condition then g.conditionNodeIssues n else []

def startCountIssues : Nat → List Issue
  | 0 => [⟨"Workflow must have a start node", .error, none⟩]
  | 1 => []
  | _ => [⟨"Workflow should have only one start node", .warning, none⟩]

/-- All that is wrong with the graph: its start nodes first, then node by node. -/
def report (g : Graph) : Report :=
  let starts := g.nodesOfKind .start
  ⟨startCountIssues starts.length ++ starts.flatMap Node.startIssues
    ++ g.nodes.flatMap g.nodeIssues⟩

end Graph

/-! ### As trees -/

variable {ε : Type}

namespace Issue

def toTree (i : Issue) : Tree ε :=
  .obj (("message", .str i.message) :: ("severity", .str i.severity.name)
    :: optionalMember "node_id" .str i.nodeId)

structure Draft where
  message : Option String
  severity : Option Severity
  nodeId : Option String

def Draft.finish (d : Draft) : Option Issue :=
  return ⟨← d.message, ← d.severity, d.nodeId⟩

def fields [Origin ε] : List (Field ε Draft) :=
  [ .of "message" Shape.text fun v d => { d with message := some v },
    .of "severity" (Shape.oneOf Severity.ofName?) fun v d => { d with severity := some v },
    .of "node_id" (Shape.optional Shape.text) fun v d => { d with nodeId := v } ]

def read [Origin ε] : Shape ε Issue :=
  Shape.record fields ⟨none, none, none⟩ Draft.finish

end Issue

def Report.toTree (r : Report) : Tree ε :=
  .obj [("issues", .arr (r.issues.map Issue.toTree))]

end SegmentFlow
