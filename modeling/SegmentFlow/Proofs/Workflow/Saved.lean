import SegmentFlow.Proofs.Canvas.ReadBack
import SegmentFlow.Proofs.Instant
import SegmentFlow.Proofs.Workflow.Migration
import SegmentFlow.Proofs.Workflow.Reading
/-!
# Saved workflows load back

A saved workflow is in the current layout, and migration leaves nearly all of it alone: no object that
a workflow writes has an old name for a member. The one thing that a workflow does not write itself is
the config of a node, and on a start node migration respells it. So what a saved workflow loads as
is the workflow with the configs of its start nodes respelled.
-/

namespace SegmentFlow

open Migration SegmentFlow.Field

namespace Migration

variable {renames : Renames} {ms : Members} {t : Json}

theorem isStored_onObject_renameAll (ht : t.IsStored) :
    (onObject (renameAll renames) t).IsStored := by
  cases t with
  | obj ms =>
      obtain ⟨hsorted, hmembers⟩ := Tree.isStored_obj_iff.1 ht
      refine Tree.isStored_obj_iff.2 ⟨sorted_renameAll hsorted, fun m hm => ?_⟩
      obtain ⟨m', hm', heq⟩ := exists_of_mem_renameAll hm
      exact heq ▸ hmembers m' hm'
  | _ => exact ht

/-- A record has none of the old names if none of its fields has. -/
theorem onObject_renameAll_of_readBack {ε δ : Type} {fields : List (Field ε δ)} {d d' : δ}
    (hnodup : (fields.map Field.name).Nodup) (h : ReadBack fields d ms d')
    (hcurrent : ∀ r ∈ renames, r.1 ∉ fields.map Field.name) :
    onObject (renameAll renames) (Tree.obj ms).normal = (Tree.obj ms).normal := by
  have hnames : ((ms.map fun m => (m.1, m.2.normal)).map Prod.fst) = ms.map Prod.fst := by
    rw [List.map_map]
    rfl
  have hperm := Dictionary.perm_ofList (hnames ▸ h.names_sublist.nodup hnodup)
  rw [Tree.normal_obj, onObject, renameAll_of_isCurrent fun r hr hmem => ?_]
  rw [(hperm.map Prod.fst).mem_iff, hnames] at hmem
  exact hcurrent r hr (h.names_sublist.subset hmem)

end Migration

theorem Condition.onObject_renameAll (c : Condition) :
    onObject (renameAll conditionRenames) c.toTree.normal = c.toTree.normal := by
  obtain ⟨ms, htree, h⟩ := WireCondition.readBack Empty c.toWire
  rw [Condition.toTree, htree]
  exact onObject_renameAll_of_readBack WireCondition.independent_fields.nodup_names h (by decide)

theorem Edge.onObject_renameAll (e : Edge) :
    onObject (renameAll edgeRenames) e.toTree.normal = e.toTree.normal := by
  obtain ⟨ms, htree, h⟩ := Edge.readBack Empty e
  rw [htree]
  exact onObject_renameAll_of_readBack Edge.independent_fields.nodup_names h (by decide)

/-! ### What migration makes of a saved workflow -/

/-- The config of a start node with its old names respelled. -/
def StartConfig.respelled (config : Json) : Json :=
  onObject (renameAll startConfigRenames) config

theorem StartConfig.respelled_eq_self_iff {c : Json} :
    StartConfig.respelled c = c ↔ ∀ members, c = .obj members →
      "merchantId" ∉ members.map Prod.fst ∧ "dataSource" ∉ members.map Prod.fst := by
  cases c with
  | obj ms =>
      rw [respelled, onObject, Tree.obj.injEq, renameAll_eq_self_iff separate_startConfigRenames]
      simp [IsCurrent, startConfigRenames]
  | _ => exact iff_of_true rfl nofun

theorem StartConfig.respelled_ne_null {c : Json} (hc : c ≠ .null) : respelled c ≠ .null := by
  cases c with
  | null => exact absurd rfl hc
  | obj ms => nofun
  | _ => exact hc

def NodeData.migrated (isStart : Bool) (d : NodeData) : NodeData :=
  { d with config := if isStart then d.config.map StartConfig.respelled else d.config }

def Node.migrated (n : Node) : Node :=
  { n with data := n.data.migrated (n.kind = .start) }

def Workflow.migrated (w : Workflow) : Workflow :=
  { w with graph := { w.graph with nodes := w.graph.nodes.map Node.migrated } }

namespace NodeData

theorem IsStorable.migrated {d : NodeData} (hd : d.IsStorable) (isStart : Bool) :
    (d.migrated isStart).IsStorable := by
  refine ⟨fun c hc => ?_, hd.conditions⟩
  cases isStart with
  | false => exact hd.config c hc
  | true =>
      obtain ⟨c', hc', rfl⟩ := Option.map_eq_some_iff.1 hc
      obtain ⟨hstored, hnull⟩ := hd.config c' hc'
      exact ⟨isStored_onObject_renameAll hstored, StartConfig.respelled_ne_null hnull⟩

theorem migrateDatum_config {d : NodeData} (hd : d.IsStorable) (isStart : Bool) :
    ((optionalMember "config" Tree.lift d.config).map fun m =>
        (m.1, migrateDatum isStart m.1 m.2.normal))
      = (optionalMember "config" Tree.lift (d.migrated isStart).config).map fun m =>
        (m.1, (m.2.normal : Json)) := by
  cases hconfig : d.config with
  | none => cases isStart <;> simp [migrated, hconfig, optionalMember]
  | some c =>
      have hc : c.IsStored := (hd.config c hconfig).1
      have hnormal : c.normal = c := hc
      have hrespelled : (StartConfig.respelled c).normal = StartConfig.respelled c :=
        isStored_onObject_renameAll hc
      cases isStart with
      | false => simp [migrated, hconfig, optionalMember, migrateDatum]
      | true =>
          simp only [migrated, hconfig, optionalMember, migrateDatum, Tree.lift_self, hnormal,
            hrespelled, if_true, Option.map_some, List.map_cons, List.map_nil]
          rfl

theorem migrateDatum_conditions (conditions : List Condition) (isStart : Bool) :
    ((if conditions.isEmpty then []
        else [("conditions", Tree.arr (conditions.map Condition.toTree))]).map fun m =>
        (m.1, migrateDatum isStart m.1 m.2.normal))
      = (if conditions.isEmpty then []
          else [("conditions", Tree.arr (conditions.map Condition.toTree))]).map fun m =>
        (m.1, (m.2.normal : Json)) := by
  split
  · rfl
  · have hconditions : onObjects (renameAll conditionRenames)
          (Tree.arr (conditions.map Condition.toTree)).normal
        = (Tree.arr (conditions.map Condition.toTree)).normal := by
      rw [Tree.normal_arr, onObjects]
      simp only [List.map_map]
      refine congrArg Tree.arr (List.map_congr_left fun c _ => ?_)
      exact c.onObject_renameAll
    rw [List.map_singleton, List.map_singleton, migrateDatum, if_pos rfl, hconditions]

theorem migrateData_toTree {d : NodeData} (hd : d.IsStorable) (isStart : Bool) :
    onObject (migrateData isStart) d.toTree.normal = (d.migrated isStart).toTree.normal := by
  obtain ⟨ms, htree, h⟩ := readBack Empty hd
  have hnodup : ((ms.map fun m => (m.1, m.2.normal)).map Prod.fst).Nodup := by
    rw [List.map_map]
    exact h.names_sublist.nodup independent_fields.nodup_names
  have hoptional {α : Type} (name : String) (hname : name ≠ "conditions" ∧ name ≠ "config")
      (write : α → Json) (x : Option α) :
      ((optionalMember name write x).map fun m => (m.1, migrateDatum isStart m.1 m.2.normal))
        = (optionalMember name write x).map fun m => (m.1, m.2.normal) := by
    cases x with
    | none => rfl
    | some a => simp [optionalMember, migrateDatum, hname.1, hname.2]
  have hlabel (t : Json) : migrateDatum isStart "label" t = t := by simp [migrateDatum]
  rw [htree, Tree.normal_obj, onObject, migrateData_eq_map, Dictionary.map_ofList _ hnodup,
    toTree, Tree.normal_obj, List.map_map, ← Tree.obj.inj htree]
  congr 2
  simp only [Function.comp_def, List.map_append, List.map_cons, hlabel]
  rw [hoptional "description" (by decide), hoptional "icon" (by decide),
    hoptional "status" (by decide), migrateDatum_config hd, migrateDatum_conditions]
  rfl

end NodeData

namespace Node

/-- What is stored of a node, with its data given. -/
def stored (n : Node) (data : Json) : Members :=
  [("id", .str n.id), ("type", .str n.kind.name), ("position", n.position.toTree.normal),
    ("data", data)]

theorem migrated_eq_self_iff {n : Node} : n.migrated = n
    ↔ (n.kind = .start → ∀ c ∈ n.data.config, StartConfig.respelled c = c) := by
  obtain ⟨id, kind, position, ⟨label, description, icon, status, config, conditions⟩⟩ := n
  simp only [migrated, NodeData.migrated, mk.injEq, NodeData.mk.injEq, true_and, and_true]
  by_cases hstart : kind = .start
  · cases config <;> simp [hstart]
  · simp [hstart]

theorem normal_toTree (n : Node) :
    n.toTree.normal = .obj (Dictionary.ofList (n.stored n.data.toTree.normal)) := by
  rw [toTree, Tree.normal_obj]
  rfl

theorem migrateNode_toTree {n : Node} (hn : n.IsStorable) :
    onObject migrateNode n.toTree.normal = n.migrated.toTree.normal := by
  have hnodup : ((n.stored n.data.toTree.normal).map Prod.fst).Nodup := by simp [stored]
  have htype : (Dictionary.ofList (n.stored n.data.toTree.normal)).lookup "type"
      = some (.str n.kind.name) := by
    rw [Dictionary.lookup_ofList hnodup]
    simp [stored, Dictionary.lookup_cons_eq]
  have hwithType : withType (Dictionary.ofList (n.stored n.data.toTree.normal))
      = Dictionary.ofList (n.stored n.data.toTree.normal) := by
    rw [withType, htype]
  have hstart : isStart (Dictionary.ofList (n.stored n.data.toTree.normal))
      = decide (n.kind = .start) := by
    rw [isStart, hwithType, htype]
    cases n.kind <;> decide
  have hupdate (change : Json → Json) :
      Dictionary.update "data" change (n.stored n.data.toTree.normal)
        = n.stored (change n.data.toTree.normal) := by
    simp [Dictionary.update, stored]
  rw [normal_toTree, onObject, migrateNode_eq, hwithType, hstart,
    Dictionary.update_ofList hnodup, hupdate, NodeData.migrateData_toTree hn.data, normal_toTree]
  rfl

end Node

theorem Trigger.ofName?_name (t : Trigger) : Trigger.ofName? t.name = some t := by
  cases t <;> rfl

theorem WorkflowStatus.ofName?_name (s : WorkflowStatus) :
    WorkflowStatus.ofName? s.name = some s := by
  cases s <;> rfl

theorem Instant.readsBack {ε : Type} [Origin ε] {t : Instant} (ht : t.IsValid) :
    (Instant.read : Shape ε Instant).ReadsBack t.toTree t :=
  Shape.readsBack_parsed (Instant.parse_text ht)

namespace Workflow

/-- What is stored of a workflow, with the members of its graph given. -/
def stored (w : Workflow) (nodes edges : Json) : Members :=
  [("id", .str w.id), ("name", .str w.name), ("description", .str w.description),
    ("trigger_type", .str w.trigger.name), ("nodes", nodes), ("edges", edges),
    ("created_at", w.createdAt.toTree), ("updated_at", w.updatedAt.toTree),
    ("status", .str w.status.name)]
  ++ optionalMember "last_triggered" Instant.toTree w.lastTriggered

variable {w : Workflow} {nodes edges : Json}

theorem normal_toTree (w : Workflow) :
    w.toTree.normal = .obj (Dictionary.ofList (w.stored
      (Tree.arr (w.graph.nodes.map Node.toTree)).normal
      (Tree.arr (w.graph.edges.map Edge.toTree)).normal)) := by
  rw [toTree, Tree.normal_obj, stored]
  cases w.lastTriggered <;> rfl

theorem nodup_names_stored (w : Workflow) (nodes edges : Json) :
    ((w.stored nodes edges).map Prod.fst).Nodup := by
  rw [stored]
  cases w.lastTriggered <;> simp [optionalMember]

theorem isCurrent_stored : IsCurrent workflowRenames (w.stored nodes edges) := by
  rw [stored]
  cases w.lastTriggered <;> simp [IsCurrent, workflowRenames, optionalMember]

theorem map_migrateMember_stored :
    (w.stored nodes edges).map (fun m => (m.1, migrateMember m.1 m.2))
      = w.stored (onObjects migrateNode nodes) (onObjects (renameAll edgeRenames) edges) := by
  rw [stored, stored]
  cases w.lastTriggered <;> simp [migrateMember, optionalMember]

/-- Migration leaves a saved workflow alone but for the configs of its start nodes. -/
theorem migrate_toTree (hnodes : ∀ n ∈ w.graph.nodes, n.IsStorable) :
    migrate w.toTree.normal = .ok w.migrated.toTree.normal := by
  have hmigrated : onObjects migrateNode (Tree.arr (w.graph.nodes.map Node.toTree)).normal
      = (Tree.arr (w.migrated.graph.nodes.map Node.toTree)).normal := by
    rw [Tree.normal_arr, Tree.normal_arr, onObjects]
    simp only [migrated, List.map_map]
    refine congrArg Tree.arr (List.map_congr_left fun n hn => ?_)
    exact Node.migrateNode_toTree (hnodes n hn)
  have hedges : onObjects (renameAll edgeRenames)
        (Tree.arr (w.graph.edges.map Edge.toTree)).normal
      = (Tree.arr (w.migrated.graph.edges.map Edge.toTree)).normal := by
    rw [Tree.normal_arr, Tree.normal_arr, onObjects]
    simp only [migrated, List.map_map]
    refine congrArg Tree.arr (List.map_congr_left fun e _ => ?_)
    exact e.onObject_renameAll
  have hcurrent : IsCurrent workflowRenames (Dictionary.ofList (w.stored
      (Tree.arr (w.graph.nodes.map Node.toTree)).normal
      (Tree.arr (w.graph.edges.map Edge.toTree)).normal)) := by
    intro r hr hmem
    rw [((Dictionary.perm_ofList (nodup_names_stored w _ _)).map Prod.fst).mem_iff] at hmem
    exact isCurrent_stored r hr hmem
  rw [normal_toTree, migrate, migrateMembers_eq_map, renameAll_of_isCurrent hcurrent,
    Dictionary.map_ofList _ (nodup_names_stored w _ _), map_migrateMember_stored, hmigrated, hedges,
    normal_toTree]
  rfl

/-! ### Reading it back -/

/-- Nothing of the workflow is lost when it is written: its coordinates are finite, its instants
exist, its configs are stored values other than null, and its conditions are reproduced. -/
structure IsStorable (w : Workflow) : Prop where
  nodes : ∀ n ∈ w.graph.nodes, n.IsStorable
  createdAt : w.createdAt.IsValid
  updatedAt : w.updatedAt.IsValid
  lastTriggered : ∀ t ∈ w.lastTriggered, t.IsValid

theorem independent_fields : Independent (fields : List (Field Empty Draft)) :=
  ⟨by simp [fields, Field.of], by simp [fields, Field.commute_of]⟩

/-- The members of the workflow itself, as they are written. -/
def ownMembers (w : Workflow) : Members :=
  [("id", .str w.id), ("name", .str w.name), ("description", .str w.description),
    ("trigger_type", .str w.trigger.name), ("created_at", w.createdAt.toTree),
    ("updated_at", w.updatedAt.toTree), ("status", .str w.status.name)]
  ++ optionalMember "last_triggered" Instant.toTree w.lastTriggered

def Draft.whole (w : Workflow) : Draft :=
  { w with
    id := some w.id
    name := some w.name
    trigger := some w.trigger
    graph := []
    createdAt := some w.createdAt
    updatedAt := some w.updatedAt }

theorem readBack (hw : w.IsStorable) :
    ReadBack (fields : List (Field Empty Draft)) .start w.ownMembers (.whole w) :=
  .present (Shape.readsBack_text _) <| .present (Shape.readsBack_text _) <|
    .present (Shape.readsBack_text _) <|
    .present (Shape.readsBack_oneOf (Trigger.ofName?_name _)) <|
    .present (Instant.readsBack hw.createdAt) <| .present (Instant.readsBack hw.updatedAt) <|
    .present (Shape.readsBack_oneOf (WorkflowStatus.ofName?_name _)) <|
    .last_optional rfl fun t ht => ⟨Instant.readsBack (hw.lastTriggered t ht), nofun⟩

theorem filter_own_stored :
    (w.stored nodes edges).filter (fun m => !(m.1 = "nodes" ∨ m.1 = "edges"))
      = w.ownMembers.map fun m => (m.1, .lift m.2.normal) := by
  rw [stored, ownMembers]
  cases w.lastTriggered <;> rfl

theorem filter_graph_stored (w : Workflow) (nodes edges : Json) :
    (w.stored nodes edges).filter (fun m => m.1 = "nodes" ∨ m.1 = "edges")
      = [("nodes", nodes), ("edges", edges)] := by
  rw [stored]
  cases w.lastTriggered <;> rfl

theorem value_read_toTree (hw : w.IsStorable) :
    (read (w.toTree.normal : Json)).value = .ok w := by
  have hperm := Dictionary.perm_ofList (nodup_names_stored w
    (Tree.arr (w.graph.nodes.map Node.toTree)).normal
    (Tree.arr (w.graph.edges.map Edge.toTree)).normal)
  rw [normal_toTree, read_obj]
  generalize hstored : Dictionary.ofList (w.stored _ _) = ms at hperm
  have hown : (Shape.readMembers fields Shape.skip [] Draft.start ms).value
      = .ok (Draft.whole w) := by
    rw [← Shape.readMembers_filter (p := fun m => !(m.1 = "nodes" ∨ m.1 = "edges"))]
    · refine (readBack hw).value_readMembers independent_fields ?_
      rw [← filter_own_stored]
      exact (hperm.filter _).symm
    · intro m _ hm hmem
      exact ne_of_mem_names hmem (by simpa [or_iff_not_imp_left] using hm)
  have hgraph : (Graph.read (.obj (graphMembers ms))).value = .ok w.graph := by
    refine Shape.value_record_of_perm Graph.independent_fields
      (Graph.readBack hw.nodes) rfl ?_
    have hmembers := (hperm.filter fun m => m.1 = "nodes" ∨ m.1 = "edges").map
      fun m => (m.1, (.lift m.2 : Tree SetAside))
    rw [filter_graph_stored] at hmembers
    exact hmembers.symm
  have hfinished : Shape.finished (fun d : Draft => d.finish .empty) (.whole w)
      = Reading.pure { w with graph := .empty } := rfl
  rw [Reading.value_bind hown, hfinished, Reading.pure_bind]
  exact Reading.value_map hgraph _

theorem IsStorable.migrated (hw : w.IsStorable) : w.migrated.IsStorable := by
  refine ⟨fun n hmigrated => ?_, hw.createdAt, hw.updatedAt, hw.lastTriggered⟩
  obtain ⟨n, hn, rfl⟩ := List.mem_map.1 hmigrated
  exact ⟨(hw.nodes n hn).position, (hw.nodes n hn).data.migrated _⟩

/-- A saved workflow loads as the workflow with the configs of its start nodes respelled. -/
theorem value_ofDocument_toTree (hw : w.IsStorable) :
    (ofDocument w.toTree.normal).value = .ok w.migrated := by
  have hread := value_read_toTree hw.migrated
  rw [ofDocument, migrate_toTree hw.nodes]
  change Except.mapError _ (read (w.migrated.toTree.normal : Json)).value = _
  rw [hread]
  rfl

/-! ### When nothing changes -/

theorem migrated_eq_self_iff : w.migrated = w ↔ ∀ n ∈ w.graph.nodes, n.migrated = n := by
  have hnodes : w.migrated = w ↔ w.graph.nodes.map Node.migrated = w.graph.nodes := by
    refine ⟨fun h => congrArg (fun w => w.graph.nodes) h, fun h => ?_⟩
    rw [migrated, h]
  rw [hnodes]
  conv_lhs => rhs; rw [← List.map_id w.graph.nodes]
  exact List.map_inj_left

/-- A saved workflow loads back exactly if the config of no start node uses an old name. -/
theorem value_ofDocument_toTree_eq_self_iff (w : Workflow) (hw : w.IsStorable) :
    (ofDocument w.toTree.normal).value = .ok w
      ↔ ∀ n ∈ w.graph.nodes, n.kind = .start →
          ∀ members, n.data.config = some (.obj members) →
            "merchantId" ∉ members.map Prod.fst ∧ "dataSource" ∉ members.map Prod.fst := by
  rw [value_ofDocument_toTree hw, Except.ok.injEq, migrated_eq_self_iff]
  refine forall₂_congr fun n _ => ?_
  rw [Node.migrated_eq_self_iff]
  refine imp_congr_right fun _ => ?_
  constructor
  · intro h members hconfig
    exact StartConfig.respelled_eq_self_iff.1 (h _ hconfig) members rfl
  · rintro h c hconfig
    refine StartConfig.respelled_eq_self_iff.2 fun members hmembers => h members ?_
    rw [← hmembers]
    exact hconfig

/-! ### Two configs of a start node -/

namespace Saved

def condition : Condition where
  id := "c"
  dataSource := none
  collection := some .orders
  field := "total"
  kind := .number
  operator := .greaterThan
  value := .number (.integer 1000)
  connective := some .and
  betweenBounds := none

def startNode (config : Members) : Node :=
  ⟨"s", .start, ⟨.ofNat 0, .ofNat 0⟩, { NodeData.labelled "Start" with config := some (.obj config) }⟩

def conditionNode : Node :=
  (Node.fresh "t" .condition ⟨.ofNat 100, .ofNat 0⟩).withConditions [condition]

def workflow (config : Members) : Workflow :=
  { draft "w" "W" .event ⟨⟨2025, 1, 1⟩, 12, 30, 0, 500000000⟩ with
    graph :=
      { nodes := [startNode config, conditionNode]
        edges := [⟨"e", "s", "t", some outputHandle, none, none, true⟩] } }

theorem isStorable_workflow (name : String) :
    (workflow [(name, .str "m")]).IsStorable := by
  have hconfig : (Tree.obj [(name, .str "m")] : Json).IsStored :=
    Tree.isStored_obj_iff.2 ⟨List.pairwise_singleton _ _, by simp [Tree.isStored_str]⟩
  have hinstant : Instant.IsValid ⟨⟨2025, 1, 1⟩, 12, 30, 0, 500000000⟩ :=
    ⟨by decide, by decide, by decide, by decide, by simp⟩
  have hstart : (startNode [(name, .str "m")]).IsStorable := by
    have hposition : Position.IsFinite ⟨.ofNat 0, .ofNat 0⟩ := by decide +kernel
    refine ⟨hposition, ?_, fun c hc => absurd hc List.not_mem_nil⟩
    rintro c ⟨⟩
    exact ⟨hconfig, nofun⟩
  have hcondition : conditionNode.IsStorable :=
    ⟨by decide +kernel, nofun, by decide +kernel⟩
  have hnodes : ∀ n ∈ [startNode [(name, .str "m")], conditionNode], n.IsStorable := by
    simp [hstart, hcondition]
  exact ⟨hnodes, hinstant, hinstant, nofun⟩

theorem value_ofDocument_workflow :
    (workflow [("merchant_id", .str "m")]).IsStorable
      ∧ (ofDocument (workflow [("merchant_id", .str "m")]).toTree.normal).value
          = .ok (workflow [("merchant_id", .str "m")])
      ∧ (workflow [("merchantId", .str "m")]).IsStorable
      ∧ (ofDocument (workflow [("merchantId", .str "m")]).toTree.normal).value
          ≠ .ok (workflow [("merchantId", .str "m")]) := by
  have hcurrent := isStorable_workflow "merchant_id"
  have hold := isStorable_workflow "merchantId"
  refine ⟨hcurrent, ?_, hold, fun h => ?_⟩
  · refine (value_ofDocument_toTree_eq_self_iff _ hcurrent).2 fun n hn _ members hconfig => ?_
    obtain rfl | rfl := List.mem_pair.1 hn
    · obtain rfl : [("merchant_id", .str "m")] = members := by simpa [startNode] using hconfig
      decide
    · exact absurd hconfig nofun
  · have hstart := (value_ofDocument_toTree_eq_self_iff _ hold).1 h _ List.mem_cons_self rfl _ rfl
    exact hstart.1 List.mem_cons_self

end Saved

end Workflow

end SegmentFlow
