import SegmentFlow.Workflow.Basic
/-!
# Old documents

Older documents call the nodes `actions` and the edges `peers`, and spell the names of members in
another way. `migrate` respells them, on documents in their stored form, before anything is read;
a document in the current layout stays as it is.
-/

namespace SegmentFlow

/-- The members of an object in its stored form. -/
abbrev Members := List (String × Json)

namespace Migration

/-- Old names of members with the current ones. -/
abbrev Renames := List (String × String)

def workflowRenames : Renames :=
  [("actions", "nodes"), ("peers", "edges"), ("triggerType", "trigger_type"),
    ("createdAt", "created_at"), ("updatedAt", "updated_at"), ("lastTriggered", "last_triggered")]

def startConfigRenames : Renames :=
  [("merchantId", "merchant_id"), ("dataSource", "data_source")]

def conditionRenames : Renames :=
  [("dataSource", "data_source"), ("fieldType", "field_type"), ("selectOptions", "select_options"),
    ("logicalOperator", "logical_operator"), ("dateType", "date_type"),
    ("periodNumber", "period_number"), ("periodUnit", "period_unit"), ("dateFrom", "date_from"),
    ("dateTo", "date_to")]

def edgeRenames : Renames :=
  [("sourceHandle", "source_handle"), ("targetHandle", "target_handle")]

/-- Moves a value from its old name to the current one, unless there is a value already. -/
def rename (old current : String) (ms : Members) : Members :=
  match ms.lookup old with
  | none => ms
  | some value =>
    let rest := Dictionary.erase old ms
    if (rest.lookup current).isSome then rest else Dictionary.insert current value rest

def renameAll (renames : Renames) (ms : Members) : Members :=
  renames.foldl (fun ms r => rename r.1 r.2 ms) ms

def onObject (change : Members → Members) : Json → Json
  | .obj ms => .obj (change ms)
  | t => t

def onObjects (change : Members → Members) : Json → Json
  | .arr ts => .arr (ts.map (onObject change))
  | t => t

/-- A node without a type takes that of its data. -/
def withType (node : Members) : Members :=
  match node.lookup "type", node.lookup "data" with
  | none, some (.obj data) =>
    match data.lookup "type" with
    | some kind => Dictionary.insert "type" kind node
    | none => node
  | _, _ => node

def migrateData (isStart : Bool) (data : Members) : Members :=
  let data :=
    if isStart then Dictionary.update "config" (onObject (renameAll startConfigRenames)) data
    else data
  Dictionary.update "conditions" (onObjects (renameAll conditionRenames)) data

def migrateNode (node : Members) : Members :=
  let node := withType node
  let isStart := node.lookup "type" = some (.str NodeKind.start.name)
  Dictionary.update "data" (onObject (migrateData isStart)) node

def migrateMembers (ms : Members) : Members :=
  let ms := renameAll workflowRenames ms
  let ms := Dictionary.update "nodes" (onObjects migrateNode) ms
  Dictionary.update "edges" (onObjects (renameAll edgeRenames)) ms

end Migration

inductive LoadError where
  | notAnObject
  | unreadable (e : ReadError)
  deriving DecidableEq

def LoadError.message : LoadError → String
  | notAnObject => "Workflow document must be a JSON object"
  | unreadable e => "Failed to parse workflow JSON: " ++ e.message

def migrate : Json → Except LoadError Json
  | .obj ms => .ok (.obj (Migration.migrateMembers ms))
  | _ => .error .notAnObject

namespace Workflow

/-- The workflow of a document in its stored form, of either layout. -/
def ofDocument (document : Json) : Traced (Except LoadError Workflow) :=
  match migrate document with
  | .ok t => Traced.map (Except.mapError .unreadable) (read t)
  | .error e => ⟨.error e, []⟩

/-- The workflow of a text. All of the text is read before anything else is looked at. -/
def load (text : String) : Traced (Except LoadError Workflow) :=
  match Tree.parse text with
  | .ok t => ofDocument t
  | .error e => ⟨.error (.unreadable e), []⟩

end Workflow

end SegmentFlow
