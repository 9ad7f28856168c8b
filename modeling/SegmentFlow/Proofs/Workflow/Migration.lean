import SegmentFlow.Proofs.Workflow.Renames
/-!
# What migration does

Migration changes values in place, so it goes member by member: what becomes of a value depends on
its name and, for the config of a node, on the type of the node. The one member that migration adds
is the type of a node that has none; the look-ups of a migrated node take that in.
-/

namespace SegmentFlow.Migration

variable {ms node node' data : Members} {n : String}

theorem separate_conditionRenames : conditionRenames.Separate := by decide

theorem separate_startConfigRenames : startConfigRenames.Separate := by decide

theorem separate_edgeRenames : edgeRenames.Separate := by decide

theorem separate_workflowRenames : workflowRenames.Separate := by decide

/-! ### The data of a node -/

def migrateDatum (isStart : Bool) (name : String) (t : Json) : Json :=
  if name = "conditions" then onObjects (renameAll conditionRenames) t
  else if name = "config" ∧ isStart = true then onObject (renameAll startConfigRenames) t
  else t

theorem migrateData_eq_map (isStart : Bool) :
    migrateData isStart data = data.map fun m => (m.1, migrateDatum isStart m.1 m.2) := by
  cases isStart with
  | false =>
      rw [migrateData, Dictionary.update, if_neg Bool.false_ne_true]
      refine List.map_congr_left fun m _ => ?_
      by_cases hconditions : m.1 = "conditions" <;> simp [migrateDatum, hconditions]
  | true =>
      rw [migrateData, Dictionary.update, Dictionary.update, if_pos rfl, List.map_map]
      refine List.map_congr_left fun m _ => ?_
      by_cases hconfig : m.1 = "config"
      · simp [migrateDatum, hconfig]
      · by_cases hconditions : m.1 = "conditions" <;> simp [migrateDatum, hconfig, hconditions]

/-! ### Nodes -/

/-- The type of a node is that of its data, if it has none of its own. -/
def isStart (node : Members) : Bool :=
  (withType node).lookup "type" = some (.str NodeKind.start.name)

/-- The type that the data of a node names. -/
def dataType? (node : Members) : Option Json :=
  match node.lookup "data" with
  | some (.obj data) => data.lookup "type"
  | _ => none

theorem lookup_withType :
    (withType node).lookup n
      = if n = "type" then (node.lookup "type").or (dataType? node) else node.lookup n := by
  rw [withType, dataType?]
  cases htype : node.lookup "type" with
  | some kind => grind
  | none =>
      cases hdata : node.lookup "data" with
      | none => grind
      | some t =>
          cases t with
          | obj data =>
              cases hkind : data.lookup "type" with
              | none => grind
              | some kind =>
                  simp only [hkind]
                  rw [Dictionary.lookup_insert, Option.none_or]
          | _ => grind

theorem sorted_withType (hnode : Dictionary.Sorted node) : Dictionary.Sorted (withType node) := by
  rw [withType]
  split
  · split
    · exact hnode.insert
    · exact hnode
  · exact hnode

theorem lookup_data_withType : (withType node).lookup "data" = node.lookup "data" := by
  rw [lookup_withType, if_neg (by decide)]

theorem migrateNode_eq : migrateNode node
    = Dictionary.update "data" (onObject (migrateData (isStart node))) (withType node) := rfl

theorem lookup_migrateNode :
    (migrateNode node).lookup n
      = if n = "data" then (node.lookup "data").map (onObject (migrateData (isStart node)))
        else (withType node).lookup n := by
  rw [migrateNode_eq, Dictionary.lookup_update]
  split
  · next heq => rw [heq, lookup_data_withType]
  · rfl

theorem sorted_migrateNode (hnode : Dictionary.Sorted node) :
    Dictionary.Sorted (migrateNode node) :=
  (sorted_withType hnode).update

theorem isStart_eq_of_lookup_eq
    (h : (withType node').lookup "type" = (withType node).lookup "type") :
    isStart node' = isStart node := by
  rw [isStart, isStart, h]

/-! ### Documents -/

def migrateMember (name : String) (t : Json) : Json :=
  if name = "nodes" then onObjects migrateNode t
  else if name = "edges" then onObjects (renameAll edgeRenames) t else t

theorem migrateMembers_eq_map :
    migrateMembers ms = (renameAll workflowRenames ms).map fun m => (m.1, migrateMember m.1 m.2) := by
  rw [migrateMembers, Dictionary.update, Dictionary.update, List.map_map]
  refine List.map_congr_left fun m _ => ?_
  by_cases hnodes : m.1 = "nodes"
  · simp [migrateMember, hnodes]
  · by_cases hedges : m.1 = "edges" <;> simp [migrateMember, hnodes, hedges]

end SegmentFlow.Migration
