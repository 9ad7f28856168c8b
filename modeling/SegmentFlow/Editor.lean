import SegmentFlow.Canvas.Connection
import SegmentFlow.Canvas.Report
import SegmentFlow.Workflow.Compiled
/-!
# The editor

An editor holds one open workflow and what goes with editing it. Every operation gives the editor
after it with the result of the operation; one that is refused leaves the workflow as it was.
`Operation` lists the operations, so that a run of them is a list.
-/

namespace SegmentFlow

structure Editor where
  workflow : Workflow
  geometry : Geometry
  assembler : Compile.Assembler
  /-- The ids of what is selected, which may no longer be there. -/
  selectedNodeId : Option String
  selectedEdgeId : Option String
  /-- What the last validation found. -/
  issues : List Issue
  /-- A message that the user has not dismissed yet. -/
  notice : Option String
  /-- There are changes that are not saved. -/
  dirty : Bool

inductive EditorError where
  | duplicateNode (id : String)
  | unknownNode (id : String)
  | unknownEdge (id : String)
  | startNodeLocked (id : String)
  | rejected (r : Rejection)
  deriving DecidableEq

def EditorError.message : EditorError → String
  | duplicateNode id => "Node with id '" ++ id ++ "' already exists"
  | unknownNode id => "Node '" ++ id ++ "' not found"
  | unknownEdge id => "Connection '" ++ id ++ "' not found"
  | startNodeLocked id => "Start node '" ++ id ++ "' cannot be deleted"
  | rejected r => r.message

namespace Graph

def updateNode (g : Graph) (id : String) (change : Node → Node) : Graph :=
  { g with nodes := go g.nodes }
where
  go : List Node → List Node
    | [] => []
    | n :: ns => if n.id = id then change n :: ns else n :: go ns

/-- The graph without the first node with an id and without the edges at that id. -/
def eraseNode (g : Graph) (id : String) : Graph where
  nodes := g.nodes.eraseP fun n => n.id = id
  edges := g.edges.filter fun e => e.source ≠ id && e.target ≠ id

/-- The graph without the first edge with an id. -/
def eraseEdge (g : Graph) (id : String) : Graph :=
  { g with edges := g.edges.eraseP fun e => e.id = id }

def hasEdge (g : Graph) (id : String) : Bool :=
  (g.edge? id).isSome

/-! ### Ids of new edges -/

def baseEdgeId (source target : String) (handle : Option String) : String :=
  "p" ++ source ++ "-" ++ target
    ++ match handle with
      | some h => "-" ++ h
      | none => ""

/-- The first free id among `base` with the numbers from `n` on. There are `tries` numbers, the last
of which is taken to be free. -/
def numberedEdgeId (g : Graph) (base : String) : (tries n : Nat) → String
  | 0, n => base ++ "-" ++ toString n
  | tries + 1, n =>
    let id := base ++ "-" ++ toString n
    if g.hasEdge id then numberedEdgeId g base tries (n + 1) else id

/-- An id for a new edge that no edge has. As many numbers as there are edges cannot all be
taken besides the base. -/
def newEdgeId (g : Graph) (source target : String) (handle : Option String) : String :=
  let base := baseEdgeId source target handle
  if g.hasEdge base then numberedEdgeId g base g.edges.length 1 else base

end Graph

def properHandle (handle : Option String) : Option String :=
  handle.filter fun h => h ≠ ""

def branchLabel (handle : Option String) : Option String :=
  if handle = some yesHandle then some "Yes"
  else if handle = some noHandle then some "No"
  else none

def Connection.toEdge (c : Connection) (g : Graph) : Edge :=
  let handle := properHandle c.sourceHandle
  { id := g.newEdgeId c.source c.target handle
    source := c.source
    target := c.target
    sourceHandle := handle
    targetHandle := properHandle c.targetHandle
    label := branchLabel handle
    animated := true }

/-! ### The start node of a new canvas -/

def standardStartNode : Node where
  id := "start-node"
  kind := .start
  position := ⟨.ofNat 250, .ofNat 200⟩
  data :=
    { NodeData.labelled "Start" with
      description := some "Workflow starting point"
      config := some <| Tree.normal <| StartConfig.toTree
        { label := some "Workflow Start"
          description := some "Beginning of workflow execution"
          merchantId := some ""
          dataSource := some "CRM" } }

namespace Editor

/-- An editor that has just opened a workflow. -/
def opening (workflow : Workflow) (geometry : Geometry) (assembler : Compile.Assembler) :
    Editor where
  workflow := workflow
  geometry := geometry
  assembler := assembler
  selectedNodeId := none
  selectedEdgeId := none
  issues := []
  notice := none
  dirty := false

def graph (e : Editor) : Graph :=
  e.workflow.graph

/-- The editor after a change of its graph. -/
def edited (e : Editor) (graph : Graph) : Editor :=
  { e with workflow := { e.workflow with graph }, dirty := true }

/-! ### Selection -/

/-- The selected node, if it is still there. -/
def selectedNode? (e : Editor) : Option Node :=
  e.selectedNodeId.bind e.graph.node?

def selectedEdge? (e : Editor) : Option Edge :=
  e.selectedEdgeId.bind e.graph.edge?

def selectNode (e : Editor) (id : Option String) : Editor :=
  { e with selectedNodeId := id, selectedEdgeId := none }

def selectEdge (e : Editor) (id : Option String) : Editor :=
  { e with selectedEdgeId := id, selectedNodeId := none }

/-! ### Changes of the graph -/

def addNode (e : Editor) (n : Node) : Editor × Except EditorError Unit :=
  if (e.graph.node? n.id).isSome then (e, .error (.duplicateNode n.id))
  else (e.edited { e.graph with nodes := e.graph.nodes ++ [n] }, .ok ())

/-- Adds the standard start node unless there is a start node; tells whether it did. -/
def ensureStartNode (e : Editor) : Editor × Bool :=
  if (e.graph.nodesOfKind .start).isEmpty then
    let (e, result) := e.addNode standardStartNode
    (e, result.isOk)
  else (e, false)

def changeNode (e : Editor) (id : String) (change : Node → Node) :
    Editor × Except EditorError Unit :=
  if (e.graph.node? id).isSome then (e.edited (e.graph.updateNode id change), .ok ())
  else (e, .error (.unknownNode id))

def moveNode (e : Editor) (id : String) (position : Position) : Editor × Except EditorError Unit :=
  e.changeNode id fun n => { n with position }

def setConditions (e : Editor) (id : String) (conditions : List Condition) :
    Editor × Except EditorError Unit :=
  e.changeNode id fun n => n.withConditions conditions

/-- Removes a node and the edges at it. Start nodes stay. -/
def deleteNode (e : Editor) (id : String) : Editor × Except EditorError Node :=
  match e.graph.node? id with
  | none => (e, .error (.unknownNode id))
  | some n =>
    if n.kind = .start then (e, .error (.startNodeLocked id))
    else
      let selected := if e.selectedNodeId = some id then none else e.selectedNodeId
      ({ e.edited (e.graph.eraseNode id) with selectedNodeId := selected }, .ok n)

/-- Draws an edge if the connection passes. A rejection that is announced becomes the notice. -/
def connect (e : Editor) (c : Connection) : Traced (Editor × Except EditorError Edge) :=
  let checked := e.geometry.checkTraced e.graph c
  match checked.value with
  | .error r =>
    ⟨({ e with notice := r.advisory?.or e.notice }, .error (.rejected r)), checked.events⟩
  | .ok () =>
    let edge := c.toEdge e.graph
    ⟨(e.edited { e.graph with edges := e.graph.edges ++ [edge] }, .ok edge),
      checked.events ++ [.connectionAdded edge.id]⟩

def deleteEdge (e : Editor) (id : String) : Editor × Except EditorError Edge :=
  match e.graph.edge? id with
  | none => (e, .error (.unknownEdge id))
  | some edge =>
    let selected := if e.selectedEdgeId = some id then none else e.selectedEdgeId
    ({ e.edited (e.graph.eraseEdge id) with selectedEdgeId := selected }, .ok edge)

/-! ### The rest -/

/-- Checks the structure, keeps what it finds, and tells whether the workflow may be saved. -/
def validate (e : Editor) : Editor × Bool :=
  let report := e.graph.report
  ({ e with issues := report.issues }, report.isValid)

def compile (e : Editor) : Traced Compile.Queries :=
  e.assembler.queries e.graph

def dismissNotice (e : Editor) : Editor :=
  { e with notice := none }

/-- Records that the workflow was saved. -/
def markSaved (e : Editor) (now : Instant) : Editor :=
  { e with workflow := { e.workflow with updatedAt := now }, dirty := false }

/-! ### Runs -/

inductive Operation where
  | addNode (n : Node)
  | moveNode (id : String) (position : Position)
  | deleteNode (id : String)
  | setConditions (id : String) (conditions : List Condition)
  | connect (c : Connection)
  | deleteEdge (id : String)
  | selectNode (id : Option String)
  | selectEdge (id : Option String)
  | ensureStartNode
  | validate
  | compile
  | dismissNotice
  | markSaved (now : Instant)
  deriving DecidableEq

/-- What an operation gives besides the editor. -/
inductive Result where
  | done
  | node (n : Node)
  | edge (e : Edge)
  | answer (yes : Bool)
  | queries (q : Compile.Queries)
  | refused (error : EditorError)
  deriving DecidableEq

def Result.of {α : Type} (ok : α → Result) : Except EditorError α → Result
  | .ok a => ok a
  | .error e => refused e

/-- The editor after an operation, and the result of the operation. -/
def apply (e : Editor) : Operation → Traced (Editor × Result)
  | .addNode n => pure ((e.addNode n).map id (.of fun _ => .done))
  | .moveNode node p => pure ((e.moveNode node p).map id (.of fun _ => .done))
  | .deleteNode node => pure ((e.deleteNode node).map id (.of .node))
  | .setConditions node cs => pure ((e.setConditions node cs).map id (.of fun _ => .done))
  | .connect c => Traced.map (Prod.map id (.of .edge)) (e.connect c)
  | .deleteEdge edge => pure ((e.deleteEdge edge).map id (.of .edge))
  | .selectNode node => pure (e.selectNode node, .done)
  | .selectEdge edge => pure (e.selectEdge edge, .done)
  | .ensureStartNode => pure (e.ensureStartNode.map id .answer)
  | .validate => pure (e.validate.map id .answer)
  | .compile => Traced.map (fun q => (e, .queries q)) e.compile
  | .dismissNotice => pure (e.dismissNotice, .done)
  | .markSaved now => pure (e.markSaved now, .done)

/-- The editor after a run of operations. -/
def run (e : Editor) (operations : List Operation) : Editor :=
  operations.foldl (fun e o => (e.apply o).value.1) e

end Editor

end SegmentFlow
