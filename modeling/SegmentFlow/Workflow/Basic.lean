import SegmentFlow.Canvas.Wire
import SegmentFlow.Instant
/-!
# Workflows

A workflow is a graph with what is known about it besides.
-/

namespace SegmentFlow

inductive Trigger where
  | event
  | schedule
  deriving DecidableEq

namespace Trigger

def all : List Trigger := [event, schedule]

def name : Trigger → String
  | event => "event-based"
  | schedule => "schedule-based"

def ofName? (s : String) : Option Trigger :=
  all.find? fun t => t.name = s

end Trigger

inductive WorkflowStatus where
  | draft
  | active
  | paused
  deriving DecidableEq

namespace WorkflowStatus

def all : List WorkflowStatus := [draft, active, paused]

def name : WorkflowStatus → String
  | draft => "draft"
  | active => "active"
  | paused => "paused"

def ofName? (s : String) : Option WorkflowStatus :=
  all.find? fun t => t.name = s

/-- An active workflow pauses, and any other one becomes active. -/
def toggled : WorkflowStatus → WorkflowStatus
  | active => paused
  | paused | draft => active

end WorkflowStatus

structure Workflow where
  id : String
  name : String
  description : String
  trigger : Trigger
  graph : Graph
  createdAt : Instant
  updatedAt : Instant
  status : WorkflowStatus
  lastTriggered : Option Instant
  deriving DecidableEq

namespace Workflow

def draft (id name : String) (trigger : Trigger) (now : Instant) : Workflow where
  id := id
  name := name
  description := ""
  trigger := trigger
  graph := .empty
  createdAt := now
  updatedAt := now
  status := .draft
  lastTriggered := none

/-- A draft copy under another id, which was never triggered. -/
def duplicate (w : Workflow) (id : String) (now : Instant) : Workflow :=
  { w with
    id := id
    name := w.name ++ " (Copy)"
    createdAt := now
    updatedAt := now
    status := .draft
    lastTriggered := none }

def toggleStatus (w : Workflow) (now : Instant) : Workflow :=
  { w with status := w.status.toggled, updatedAt := now }

end Workflow

/-! ### As trees -/

variable {ε : Type}

namespace Instant

def toTree (t : Instant) : Tree ε :=
  .str t.text

def read [Origin ε] : Shape ε Instant :=
  Shape.parsed parse

end Instant

namespace Workflow

/-- The members of the graph stand among those of the workflow. -/
def toTree (w : Workflow) : Tree ε :=
  .obj <|
    ("id", .str w.id)
    :: ("name", .str w.name)
    :: ("description", .str w.description)
    :: ("trigger_type", .str w.trigger.name)
    :: w.graph.members
    ++ ("created_at", w.createdAt.toTree)
    :: ("updated_at", w.updatedAt.toTree)
    :: ("status", .str w.status.name)
    :: optionalMember "last_triggered" Instant.toTree w.lastTriggered

structure Draft where
  id : Option String
  name : Option String
  description : String
  trigger : Option Trigger
  /-- The members of the graph, which are read last. -/
  graph : List (String × Tree SetAside)
  createdAt : Option Instant
  updatedAt : Option Instant
  status : WorkflowStatus
  lastTriggered : Option Instant

def Draft.start : Draft where
  id := none
  name := none
  description := ""
  trigger := none
  graph := []
  createdAt := none
  updatedAt := none
  status := .draft
  lastTriggered := none

def Draft.finish (d : Draft) (graph : Graph) : Option Workflow := do
  let id ← d.id
  let name ← d.name
  let trigger ← d.trigger
  let createdAt ← d.createdAt
  let updatedAt ← d.updatedAt
  return { d with id, name, trigger, graph, createdAt, updatedAt }

def fields [Origin ε] : List (Field ε Draft) :=
  [ .of "id" Shape.text fun v d => { d with id := some v },
    .of "name" Shape.text fun v d => { d with name := some v },
    .of "description" Shape.text fun v d => { d with description := v },
    .of "trigger_type" (Shape.oneOf Trigger.ofName?) fun v d => { d with trigger := some v },
    .of "created_at" Instant.read fun v d => { d with createdAt := some v },
    .of "updated_at" Instant.read fun v d => { d with updatedAt := some v },
    .of "status" (Shape.oneOf WorkflowStatus.ofName?) fun v d => { d with status := v },
    .of "last_triggered" (Shape.optional Instant.read) fun v d => { d with lastTriggered := v } ]

/-- A member that is not the workflow's own is set aside, and kept if it is one of the graph. -/
def readOther [Origin ε] (name : String) : Shape ε (Draft → Draft) := fun t =>
  (Shape.setAside t).map fun t d =>
    if name = "nodes" ∨ name = "edges" then { d with graph := d.graph ++ [(name, t)] } else d

/-- A workflow has to be an object. Its own members are checked to be complete before the graph is
read. -/
def read [Origin ε] : Shape ε Workflow
  | .obj ms =>
    (Shape.readMembers fields readOther [] .start ms).bind fun d =>
      (Shape.finished (fun d => d.finish .empty) d).bind fun w =>
        (Graph.read (.obj d.graph)).map fun graph => { w with graph }
  | t => Shape.mismatch t

/-- The workflow as it stands in a list. -/
def summaryTree (w : Workflow) : Tree ε :=
  .obj <|
    ("id", .str w.id)
    :: ("name", .str w.name)
    :: ("trigger_type", .str w.trigger.name)
    :: ("status", .str w.status.name)
    :: ("node_count", .ofNat w.graph.nodes.length)
    :: ("last_modified", w.updatedAt.toTree)
    :: optionalMember "last_triggered" Instant.toTree w.lastTriggered

end Workflow

end SegmentFlow
