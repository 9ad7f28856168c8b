import SegmentFlow.Canvas.Graph
import SegmentFlow.Condition.Wire
/-!
# The canvas as trees
-/

namespace SegmentFlow

variable {ε : Type}

/-- A float that is not finite has no number to stand for it. -/
def Binary64.toTree (x : Binary64) : Tree ε :=
  if x.isFinite then .num (.float x) else .null

/-! ### Positions -/

namespace Position

def toTree (p : Position) : Tree ε :=
  .obj [("x", p.x.toTree), ("y", p.y.toTree)]

def fields [Origin ε] : List (Field ε (Option Binary64 × Option Binary64)) :=
  [ .of "x" Shape.float fun v d => (some v, d.2),
    .of "y" Shape.float fun v d => (d.1, some v) ]

def read [Origin ε] : Shape ε Position :=
  Shape.record fields (none, none) fun d => return ⟨← d.1, ← d.2⟩

end Position

/-! ### Start configurations -/

namespace StartConfig

def blank : StartConfig := ⟨none, none, none, none⟩

def toTree (c : StartConfig) : Tree ε :=
  .obj <|
    optionalMember "label" .str c.label
    ++ optionalMember "description" .str c.description
    ++ optionalMember "merchant_id" .str c.merchantId
    ++ optionalMember "data_source" .str c.dataSource

def fields [Origin ε] : List (Field ε StartConfig) :=
  [ .of "label" (Shape.optional Shape.text) fun v c => { c with label := v },
    .of "description" (Shape.optional Shape.text) fun v c => { c with description := v },
    .of "merchant_id" (Shape.optional Shape.text) fun v c => { c with merchantId := v },
    .of "data_source" (Shape.optional Shape.text) fun v c => { c with dataSource := v } ]

def read [Origin ε] : Shape ε StartConfig :=
  Shape.record fields blank some

end StartConfig

/-! ### Nodes -/

namespace NodeData

/-- The config read as that of a start node, if it is one. -/
def startConfig? (d : NodeData) : Option StartConfig :=
  d.config.bind fun c => (StartConfig.read c).value.toOption

def toTree (d : NodeData) : Tree ε :=
  .obj <|
    ("label", .str d.label)
    :: optionalMember "description" .str d.description
    ++ optionalMember "icon" .str d.icon
    ++ optionalMember "status" (fun s => .str s.name) d.status
    ++ optionalMember "config" Tree.lift d.config
    ++ if d.conditions.isEmpty then []
      else [("conditions", .arr (d.conditions.map Condition.toTree))]

structure Draft where
  label : Option String
  description : Option String
  icon : Option String
  status : Option NodeStatus
  config : Option Json
  conditions : List Condition

def Draft.start : Draft where
  label := none
  description := none
  icon := none
  status := none
  config := none
  conditions := []

def Draft.finish (d : Draft) : Option NodeData := do
  let label ← d.label
  return { d with label }

def fields [Origin ε] : List (Field ε Draft) :=
  [ .of "label" Shape.text fun v d => { d with label := some v },
    .of "description" (Shape.optional Shape.text) fun v d => { d with description := v },
    .of "icon" (Shape.optional Shape.text) fun v d => { d with icon := v },
    .of "status" (Shape.optional (Shape.oneOf NodeStatus.ofName?)) fun v d =>
      { d with status := v },
    .of "config" (Shape.optional Shape.anything) fun v d => { d with config := v },
    .of "conditions" (Shape.list Condition.read) fun v d => { d with conditions := v } ]

def read [Origin ε] : Shape ε NodeData :=
  Shape.record fields Draft.start Draft.finish

end NodeData

namespace Node

def toTree (n : Node) : Tree ε :=
  .obj [("id", .str n.id), ("type", .str n.kind.name), ("position", n.position.toTree),
    ("data", n.data.toTree)]

structure Draft where
  id : Option String
  kind : Option NodeKind
  position : Option Position
  data : Option NodeData

def Draft.finish (d : Draft) : Option Node :=
  return ⟨← d.id, ← d.kind, ← d.position, ← d.data⟩

def fields [Origin ε] : List (Field ε Draft) :=
  [ .of "id" Shape.text fun v d => { d with id := some v },
    .of "type" (Shape.oneOf NodeKind.ofName?) fun v d => { d with kind := some v },
    .of "position" Position.read fun v d => { d with position := some v },
    .of "data" NodeData.read fun v d => { d with data := some v } ]

def read [Origin ε] : Shape ε Node :=
  Shape.record fields ⟨none, none, none, none⟩ Draft.finish

end Node

/-! ### Edges -/

namespace Edge

def toTree (e : Edge) : Tree ε :=
  .obj <|
    ("id", .str e.id)
    :: ("source", .str e.source)
    :: ("target", .str e.target)
    :: optionalMember "source_handle" .str e.sourceHandle
    ++ optionalMember "target_handle" .str e.targetHandle
    ++ optionalMember "label" .str e.label
    ++ [("animated", .bool e.animated)]

structure Draft where
  id : Option String
  source : Option String
  target : Option String
  sourceHandle : Option String
  targetHandle : Option String
  label : Option String
  animated : Bool

def Draft.start : Draft where
  id := none
  source := none
  target := none
  sourceHandle := none
  targetHandle := none
  label := none
  animated := false

def Draft.finish (d : Draft) : Option Edge := do
  let id ← d.id
  let source ← d.source
  let target ← d.target
  return { d with id, source, target }

def fields [Origin ε] : List (Field ε Draft) :=
  [ .of "id" Shape.text fun v d => { d with id := some v },
    .of "source" Shape.text fun v d => { d with source := some v },
    .of "target" Shape.text fun v d => { d with target := some v },
    .of "source_handle" (Shape.optional Shape.text) fun v d => { d with sourceHandle := v },
    .of "target_handle" (Shape.optional Shape.text) fun v d => { d with targetHandle := v },
    .of "label" (Shape.optional Shape.text) fun v d => { d with label := v },
    .of "animated" Shape.flag fun v d => { d with animated := v } ]

def read [Origin ε] : Shape ε Edge :=
  Shape.record fields Draft.start Draft.finish

end Edge

/-! ### Graphs -/

namespace Graph

def members (g : Graph) : List (String × Tree ε) :=
  [("nodes", .arr (g.nodes.map Node.toTree)), ("edges", .arr (g.edges.map Edge.toTree))]

def toTree (g : Graph) : Tree ε :=
  .obj g.members

def fields [Origin ε] : List (Field ε Graph) :=
  [ .of "nodes" (Shape.list Node.read) fun v g => { g with nodes := v },
    .of "edges" (Shape.list Edge.read) fun v g => { g with edges := v } ]

def read [Origin ε] : Shape ε Graph :=
  Shape.record fields empty some

end Graph

end SegmentFlow
