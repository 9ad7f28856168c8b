import SegmentFlow.Canvas.Wire
/-!
# Which edges may be drawn

A connection is an edge that somebody is about to draw. It is checked against rules in a fixed
order, and the first one that it breaks is the rejection. The layout runs from left to right: the
target lies beyond the column of its source, and no node of the same row lies between the two.
-/

namespace SegmentFlow

structure Connection where
  source : String
  target : String
  sourceHandle : Option String
  targetHandle : Option String
  deriving DecidableEq

inductive Rejection where
  | invalidHandle (source target : String)
  | unknownNode (id : String)
  | startAlreadyConnected (target : String)
  | startTargetNotCondition (kind : NodeKind)
  | notLeftToRight (source target : String)
  | skipsNodes (ids : List String)
  deriving DecidableEq

namespace Rejection

def message : Rejection → String
  | invalidHandle source target =>
    "Cannot connect handle '" ++ source ++ "' to handle '" ++ target ++ "'"
  | unknownNode id => "Node '" ++ id ++ "' does not exist in the workflow"
  | startAlreadyConnected _ => "Start node can only connect to one condition node"
  | startTargetNotCondition _ => "Start node can only connect to condition nodes"
  | notLeftToRight source target =>
    "Node '" ++ target ++ "' must be placed to the right of node '" ++ source ++ "'"
  | skipsNodes _ => "Cannot skip over intermediate nodes"

/-- The message to show, for the rejections that are announced. -/
def advisory? : Rejection → Option String
  | invalidHandle .. | unknownNode _ | notLeftToRight .. => none
  | r => some r.message

end Rejection

structure Geometry where
  /-- How far beyond its source a target has to lie. -/
  columnBuffer : Binary64
  /-- How far from the height of the source a node still is in its row. -/
  rowBand : Binary64
  deriving DecidableEq

namespace Geometry

def standard : Geometry := ⟨.ofNat 50, .ofNat 200⟩

/-- No handle, or an empty one, fits anywhere. -/
def fits (allowed : List String) : Option String → Bool
  | none => true
  | some h => h = "" || h ∈ allowed

/-- The node lies in the row of the source, strictly between the columns of the two. -/
def between (m : Geometry) (source target node : Node) : Bool :=
  node.id ≠ source.id && node.id ≠ target.id
    && source.position.x + m.columnBuffer < node.position.x
    && node.position.x < target.position.x - m.columnBuffer
    && (node.position.y - source.position.y).abs < m.rowBand

/-- The rules for a start node: it has one target, and that is a condition. -/
def checkStart (g : Graph) (source target : Node) : Except Rejection Unit :=
  match (g.outgoing source.id).find? fun e => e.target ≠ target.id with
  | some e => .error (.startAlreadyConnected e.target)
  | none =>
    if target.kind = .condition then .ok () else .error (.startTargetNotCondition target.kind)

def checkLayout (m : Geometry) (g : Graph) (source target : Node) : Except Rejection Unit :=
  if target.position.x ≤ source.position.x + m.columnBuffer then
    .error (.notLeftToRight source.id target.id)
  else
    match g.nodes.filter (m.between source target) with
    | [] => .ok ()
    | skipped => .error (.skipsNodes (skipped.map Node.id))

/-- Checks a connection; the error is the first rule that it breaks. -/
def check (m : Geometry) (g : Graph) (c : Connection) : Except Rejection Unit := do
  unless fits [outputHandle, yesHandle, noHandle] c.sourceHandle
      && fits [inputHandle] c.targetHandle do
    throw (.invalidHandle (c.sourceHandle.getD "") (c.targetHandle.getD ""))
  let some source := g.node? c.source | throw (.unknownNode c.source)
  let some target := g.node? c.target | throw (.unknownNode c.target)
  if source.kind = .start then checkStart g source target
  m.checkLayout g source target

/-- `check`, telling of a rejection. -/
def checkTraced (m : Geometry) (g : Graph) (c : Connection) : Traced (Except Rejection Unit) :=
  match m.check g c with
  | .ok () => ⟨.ok (), []⟩
  | .error r => ⟨.error r, [.connectionRejected c.source c.target r.message]⟩

end Geometry

/-! ### As trees -/

variable {ε : Type}

namespace Connection

def toTree (c : Connection) : Tree ε :=
  .obj [("source", .str c.source), ("target", .str c.target),
    ("source_handle", .ofOption .str c.sourceHandle),
    ("target_handle", .ofOption .str c.targetHandle)]

structure Draft where
  source : Option String
  target : Option String
  sourceHandle : Option String
  targetHandle : Option String

def Draft.finish (d : Draft) : Option Connection :=
  return ⟨← d.source, ← d.target, d.sourceHandle, d.targetHandle⟩

def fields [Origin ε] : List (Field ε Draft) :=
  [ .of "source" Shape.text fun v d => { d with source := some v },
    .of "target" Shape.text fun v d => { d with target := some v },
    .of "source_handle" (Shape.optional Shape.text) fun v d => { d with sourceHandle := v },
    .of "target_handle" (Shape.optional Shape.text) fun v d => { d with targetHandle := v } ]

def read [Origin ε] : Shape ε Connection :=
  Shape.record fields ⟨none, none, none, none⟩ Draft.finish

end Connection

namespace Geometry

def toTree (m : Geometry) : Tree ε :=
  .obj [("column_buffer", m.columnBuffer.toTree), ("row_band", m.rowBand.toTree)]

def fields [Origin ε] : List (Field ε Geometry) :=
  [ .of "column_buffer" Shape.float fun v m => { m with columnBuffer := v },
    .of "row_band" Shape.float fun v m => { m with rowBand := v } ]

/-- Measures; what is missing is as in the standard ones. -/
def read [Origin ε] : Shape ε Geometry :=
  Shape.record fields standard some

end Geometry

end SegmentFlow
