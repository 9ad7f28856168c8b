import SegmentFlow.Condition.Basic
import SegmentFlow.Json.Basic
/-!
# The canvas

A workflow is drawn as nodes on a plane and edges between them. Ids are meant to be unique but
nothing in a graph enforces it, and an edge may name a node that is not there; a look-up by id
finds the first.
-/

namespace SegmentFlow

/-! ### Handles

An edge leaves a node and enters another one by a handle. A condition node has one handle for each
of its two outcomes. -/

def outputHandle : String := "output"
def yesHandle : String := "yes"
def noHandle : String := "no"
def inputHandle : String := "input"

inductive NodeKind where
  | start
  | trigger
  | condition
  | action
  | step
  deriving DecidableEq

namespace NodeKind

def all : List NodeKind := [start, trigger, condition, action, step]

def name : NodeKind → String
  | start => "start"
  | trigger => "trigger"
  | condition => "condition"
  | action => "action"
  | step => "step"

def ofName? (s : String) : Option NodeKind :=
  all.find? fun k => k.name = s

end NodeKind

inductive NodeStatus where
  | active
  | review
  | error
  | disabled
  deriving DecidableEq

namespace NodeStatus

def all : List NodeStatus := [active, review, error, disabled]

def name : NodeStatus → String
  | active => "active"
  | review => "review"
  | error => "error"
  | disabled => "disabled"

def ofName? (s : String) : Option NodeStatus :=
  all.find? fun t => t.name = s

end NodeStatus

structure Position where
  x : Binary64
  y : Binary64
  deriving DecidableEq

structure StartConfig where
  label : Option String
  description : Option String
  merchantId : Option String
  dataSource : Option String
  deriving DecidableEq

/-- What a node shows and does. Its config is a matter of its own, except on a start node. -/
structure NodeData where
  label : String
  description : Option String
  icon : Option String
  status : Option NodeStatus
  config : Option Json
  conditions : List Condition
  deriving DecidableEq

def NodeData.labelled (label : String) : NodeData where
  label := label
  description := none
  icon := none
  status := none
  config := none
  conditions := []

structure Node where
  id : String
  kind : NodeKind
  position : Position
  data : NodeData
  deriving DecidableEq

namespace Node

/-- A node that is labelled by its id. -/
def fresh (id : String) (kind : NodeKind) (position : Position) : Node :=
  ⟨id, kind, position, .labelled id⟩

def label (n : Node) : String :=
  n.data.label

def withConditions (n : Node) (conditions : List Condition) : Node :=
  { n with data := { n.data with conditions } }

end Node

structure Edge where
  id : String
  source : String
  target : String
  sourceHandle : Option String
  targetHandle : Option String
  label : Option String
  animated : Bool
  deriving DecidableEq

def Edge.leavesBy (e : Edge) (handle : String) : Bool :=
  e.sourceHandle = some handle

structure Graph where
  nodes : List Node
  edges : List Edge
  deriving DecidableEq

namespace Graph

def empty : Graph := ⟨[], []⟩

def node? (g : Graph) (id : String) : Option Node :=
  g.nodes.find? fun n => n.id = id

def edge? (g : Graph) (id : String) : Option Edge :=
  g.edges.find? fun e => e.id = id

def outgoing (g : Graph) (id : String) : List Edge :=
  g.edges.filter fun e => e.source = id

def hasIncoming (g : Graph) (id : String) : Bool :=
  g.edges.any fun e => e.target = id

def nodesOfKind (g : Graph) (kind : NodeKind) : List Node :=
  g.nodes.filter fun n => n.kind = kind

end Graph

end SegmentFlow
