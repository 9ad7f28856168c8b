import Mathlib.Data.List.Forall2
import SegmentFlow.Proofs.Workflow.Migration
import SegmentFlow.Proofs.Workflow.Reading
/-!
# Documents in the old layout

A document in the old layout says the same as one in the current layout. What makes a document an
old spelling of another one is put together from three relations: one that respells an object, one
that reaches the objects inside a value, and one that goes through the members of an object.
Migration undoes all of that but for the type of a node, which stays behind in its data; there it
is passed over.
-/

namespace SegmentFlow

variable {ε : Type}

namespace Migration

/-! ### Old spellings -/

/-- A value is left alone or, if it is an object, changed as `R` says. -/
inductive OnObject (R : Members → Members → Prop) : Json → Json → Prop
  | same (t : Json) : OnObject R t t
  | changed {ms ms' : Members} (h : R ms ms') : OnObject R (.obj ms) (.obj ms')

/-- A value is left alone or, if it is an array, the objects in it are. -/
inductive OnObjects (R : Members → Members → Prop) : Json → Json → Prop
  | same (t : Json) : OnObjects R t t
  | changed {ts ts' : List Json} (h : List.Forall₂ (OnObject R) ts ts') :
    OnObjects R (.arr ts) (.arr ts')

/-- Two objects have the same names, and the values under each name are related. -/
def Memberwise (R : String → Json → Json → Prop) (ms ms' : Members) : Prop :=
  List.Forall₂ (fun m m' => m'.1 = m.1 ∧ R m.1 m.2 m'.2) ms ms'

def OldData (isStart : Bool) : Members → Members → Prop :=
  Memberwise fun name t t' =>
    (name = "conditions" ∧ OnObjects (Respelled conditionRenames) t t')
      ∨ (name = "config" ∧ isStart = true ∧ OnObject (Respelled startConfigRenames) t t')
      ∨ t' = t

/-- The type of the node stands in its data instead. -/
def TypeMoved (node node' : Members) : Prop :=
  ∃ kind data, node.lookup "type" = some kind ∧ node.lookup "data" = some (.obj data)
    ∧ node' = Dictionary.update "data" (fun _ => .obj (Dictionary.insert "type" kind data))
        (Dictionary.erase "type" node)

def OldNode (node node' : Members) : Prop :=
  ∃ spelled,
    Memberwise (fun name t t' =>
      (name = "data" ∧ OnObject (OldData (isStart node)) t t') ∨ t' = t) node spelled
    ∧ (node' = spelled ∨ TypeMoved spelled node')

/-- `ms'` is an old spelling of the document `ms`. -/
def OldDocument (ms ms' : Members) : Prop :=
  ∃ spelled,
    Memberwise (fun name t t' =>
      (name = "nodes" ∧ OnObjects OldNode t t')
        ∨ (name = "edges" ∧ OnObjects (Respelled edgeRenames) t t')
        ∨ t' = t) ms spelled
    ∧ Respelled workflowRenames spelled ms'

/-! ### Changes inside related values -/

variable {R : Members → Members → Prop} {S T : String → Json → Json → Prop}
  {ms ms' node node' data data' : Members} {t t' : Json} {n : String}

theorem OnObject.onObject_eq {change : Members → Members} (h : OnObject R t t') (ht : t.IsStored)
    (hR : ∀ {ms ms'}, (Tree.obj ms : Json).IsStored → R ms ms' → change ms' = change ms) :
    onObject change t' = onObject change t := by
  cases h with
  | same => rfl
  | changed h => exact congrArg Tree.obj (hR ht h)

theorem OnObjects.onObjects_eq {change : Members → Members} (h : OnObjects R t t') (ht : t.IsStored)
    (hR : ∀ {ms ms'}, (Tree.obj ms : Json).IsStored → R ms ms' → change ms' = change ms) :
    onObjects change t' = onObjects change t := by
  cases h with
  | same => rfl
  | @changed ts ts' h =>
      have hts := Tree.isStored_arr_iff.1 ht
      have hmap : ts.map (onObject change) = ts'.map (onObject change) := by
        rw [← List.forall₂_eq_eq_eq, List.forall₂_map_left_iff, List.forall₂_map_right_iff]
        refine ((List.forall₂_and_left ts ts').2 ⟨hts, h⟩).imp fun t t' hitem => ?_
        exact (hitem.2.onObject_eq hitem.1 hR).symm
      exact congrArg Tree.arr hmap.symm

theorem Memberwise.lookup (h : Memberwise S ms ms') (n : String) :
    (ms.lookup n = none ∧ ms'.lookup n = none)
      ∨ ∃ t t', ms.lookup n = some t ∧ ms'.lookup n = some t' ∧ S n t t' := by
  induction h with
  | nil => exact .inl ⟨rfl, rfl⟩
  | @cons m m' ms ms' hm hms ih =>
      rw [Dictionary.lookup_cons_eq, Dictionary.lookup_cons_eq, hm.1]
      split
      · next heq => exact .inr ⟨m.2, m'.2, rfl, rfl, heq ▸ hm.2⟩
      · exact ih

theorem Memberwise.names_eq (h : Memberwise S ms ms') :
    ms'.map Prod.fst = ms.map Prod.fst := by
  induction h with
  | nil => rfl
  | cons hm _ ih => rw [List.map_cons, List.map_cons, hm.1, ih]

theorem Memberwise.map {f : String → Json → Json} (h : Memberwise S ms ms')
    (hf : ∀ m ∈ ms, ∀ t', S m.1 m.2 t' → T m.1 (f m.1 m.2) (f m.1 t')) :
    Memberwise T (ms.map fun m => (m.1, f m.1 m.2)) (ms'.map fun m => (m.1, f m.1 m.2)) := by
  rw [Memberwise, List.forall₂_map_left_iff, List.forall₂_map_right_iff]
  refine ((List.forall₂_and_left ms ms').2 ⟨hf, h⟩).imp fun m m' hm => ?_
  obtain ⟨hf, hname, hm⟩ := hm
  exact ⟨hname, hname ▸ hf m'.2 hm⟩

theorem Memberwise.eq (h : Memberwise (fun _ t t' => t' = t) ms ms') : ms' = ms := by
  induction h with
  | nil => rfl
  | cons hm _ ih => rw [ih, Prod.ext hm.1 hm.2]

/-! ### The data of a node -/

theorem Respelled.renameAll_congr {renames : Renames} (hrenames : renames.Separate)
    (hms : (Tree.obj ms : Json).IsStored) (h : Respelled renames ms ms') :
    renameAll renames ms' = renameAll renames ms := by
  rw [h.renameAll_eq hrenames (Tree.isStored_obj_iff.1 hms).1, renameAll_of_isCurrent h.current]

theorem OldData.migrateData_eq {isStart : Bool} (hdata : (Tree.obj data : Json).IsStored)
    (h : OldData isStart data data') : migrateData isStart data' = migrateData isStart data := by
  rw [migrateData_eq_map, migrateData_eq_map]
  refine (h.map fun m hm t' hold => ?_).eq
  have ht := (Tree.isStored_obj_iff.1 hdata).2 m hm
  obtain ⟨hname, hold⟩ | ⟨hname, hstart, hold⟩ | rfl := hold
  · rw [migrateDatum, migrateDatum, if_pos hname, if_pos hname]
    exact hold.onObjects_eq ht (Respelled.renameAll_congr separate_conditionRenames)
  · have hother : m.1 ≠ "conditions" := by rw [hname]; decide
    rw [migrateDatum, migrateDatum, if_neg hother, if_neg hother, if_pos ⟨hname, hstart⟩,
      if_pos ⟨hname, hstart⟩]
    exact hold.onObject_eq ht (Respelled.renameAll_congr separate_startConfigRenames)
  · rfl

theorem OldData.lookup_type {isStart : Bool} (h : OldData isStart data data') :
    data'.lookup "type" = data.lookup "type" := by
  obtain ⟨hnone, hnone'⟩ | ⟨t, t', ht, ht', ⟨hname, -⟩ | ⟨hname, -⟩ | rfl⟩ := h.lookup "type"
  · rw [hnone, hnone']
  · exact absurd hname (by decide)
  · exact absurd hname (by decide)
  · rw [ht, ht']

theorem erase_type_migrateData (isStart : Bool) (kind : Json) :
    Dictionary.erase "type" (migrateData isStart (Dictionary.insert "type" kind data))
      = Dictionary.erase "type" (migrateData isStart data) := by
  rw [migrateData_eq_map, migrateData_eq_map, Dictionary.erase_map, Dictionary.erase_map,
    Dictionary.erase_insert]

/-! ### Nodes -/

/-- The spelling of the data of a node does not matter. -/
theorem migrateNode_eq_of_memberwise (hnode : (Tree.obj node : Json).IsStored)
    (h : Memberwise (fun name t t' =>
      (name = "data" ∧ OnObject (OldData (isStart node)) t t') ∨ t' = t) node node') :
    migrateNode node' = migrateNode node := by
  obtain ⟨hsorted, hmembers⟩ := Tree.isStored_obj_iff.1 hnode
  have hsorted' : Dictionary.Sorted node' := by
    rw [Dictionary.sorted_iff_names, h.names_eq]
    exact Dictionary.sorted_iff_names.1 hsorted
  have hother {n : String} (hn : n ≠ "data") : node'.lookup n = node.lookup n := by
    obtain ⟨hnone, hnone'⟩ | ⟨t, t', ht, ht', hold⟩ := h.lookup n
    · rw [hnone, hnone']
    · rw [ht, ht', hold.resolve_left fun hdata => hn hdata.1]
  have hdata : (node.lookup "data" = none ∧ node'.lookup "data" = none)
      ∨ ∃ t t', node.lookup "data" = some t ∧ node'.lookup "data" = some t'
        ∧ OnObject (OldData (isStart node)) t t' := by
    obtain hnone | ⟨t, t', ht, ht', ⟨-, hold⟩ | rfl⟩ := h.lookup "data"
    · exact .inl hnone
    · exact .inr ⟨t, t', ht, ht', hold⟩
    · exact .inr ⟨_, _, ht, ht', .same _⟩
  have hdataType : dataType? node' = dataType? node := by
    rw [dataType?, dataType?]
    obtain ⟨hnone, hnone'⟩ | ⟨t, t', ht, ht', hold⟩ := hdata
    · rw [hnone, hnone']
    · rw [ht, ht']
      cases hold with
      | same => rfl
      | changed hold => exact hold.lookup_type
  have hwithType {n : String} (hn : n ≠ "data") :
      (withType node').lookup n = (withType node).lookup n := by
    rw [lookup_withType, lookup_withType, hdataType, hother hn, hother (by decide)]
  have hstart := isStart_eq_of_lookup_eq (hwithType (n := "type") (by decide))
  refine (sorted_migrateNode hsorted').eq_of_lookup_eq (sorted_migrateNode hsorted) fun n => ?_
  rw [lookup_migrateNode, lookup_migrateNode, hstart]
  split
  · obtain ⟨hnone, hnone'⟩ | ⟨t, t', ht, ht', hold⟩ := hdata
    · rw [hnone, hnone']
    · have hstored : t.IsStored := hmembers _ (Dictionary.mem_of_lookup_eq_some ht)
      rw [ht, ht', Option.map_some, Option.map_some, hold.onObject_eq hstored OldData.migrateData_eq]
  · next hn => exact hwithType hn

/-- Where the type of a node stands does not matter either, but it stays in the data. -/
theorem TypeMoved.exists_migrateNode_eq (hnode : Dictionary.Sorted node)
    (h : TypeMoved node node') :
    ∃ kind data, node.lookup "data" = some (.obj data)
      ∧ migrateNode node' = Dictionary.update "data"
          (fun _ => .obj (migrateData (isStart node) (Dictionary.insert "type" kind data)))
          (migrateNode node) := by
  obtain ⟨kind, data, hkind, hdata, hnode'⟩ := h
  refine ⟨kind, data, hdata, ?_⟩
  have hsorted' : Dictionary.Sorted node' := hnode' ▸ hnode.erase.update
  have hdata' : node'.lookup "data" = some (.obj (Dictionary.insert "type" kind data)) := by
    rw [hnode', Dictionary.lookup_update, if_pos rfl, Dictionary.lookup_erase, if_neg (by decide),
      hdata, Option.map_some]
  have hother {n : String} (hn : n ≠ "data") :
      node'.lookup n = if n = "type" then none else node.lookup n := by
    rw [hnode', Dictionary.lookup_update, if_neg hn, Dictionary.lookup_erase]
  have hdataType : dataType? node' = some kind := by
    rw [dataType?, hdata']
    exact Dictionary.lookup_insert.trans (if_pos rfl)
  have hwithType {n : String} (hn : n ≠ "data") :
      (withType node').lookup n = (withType node).lookup n := by
    rw [lookup_withType, lookup_withType, hdataType, hother (by decide), if_pos rfl, hkind,
      Option.none_or, Option.some_or, hother hn]
    split <;> rfl
  have hstart := isStart_eq_of_lookup_eq (hwithType (n := "type") (by decide))
  refine (sorted_migrateNode hsorted').eq_of_lookup_eq (sorted_migrateNode hnode).update
    fun n => ?_
  rw [Dictionary.lookup_update, lookup_migrateNode, lookup_migrateNode, hstart]
  split
  · rw [hdata', hdata, Option.map_some, Option.map_some, Option.map_some, onObject]
  · next hn => exact hwithType hn

end Migration

/-! ### The type in the data is passed over -/

variable (ε) in
theorem NodeData.read_lift_eq [Origin ε] [IsEmpty ε] {data data' : Members}
    (h : Dictionary.erase "type" data' = Dictionary.erase "type" data) :
    (NodeData.read (Tree.lift (.obj data') : Tree ε)) = NodeData.read (.lift (.obj data) : Tree ε) :=
  Shape.record_lift_eq_of_erase_eq (by simp [NodeData.fields, Field.of]) h _ _

theorem Node.read_lift_update [Origin ε] [IsEmpty ε] {node data data' : Members}
    (hnode : Dictionary.Sorted node) (hdata : node.lookup "data" = some (.obj data))
    (h : Dictionary.erase "type" data' = Dictionary.erase "type" data) :
    Node.read (.lift (.obj (Dictionary.update "data" (fun _ => .obj data') node)) : Tree ε)
      = Node.read (.lift (.obj node) : Tree ε) := by
  rw [Tree.lift_obj, Tree.lift_obj]
  refine congrArg (Reading.bind · _) (Shape.readMembers_congr ?_)
  rw [Dictionary.update, List.map_map, List.forall₂_map_left_iff, List.forall₂_map_right_iff,
    List.forall₂_same]
  intro m hm
  by_cases hname : m.1 = "data"
  · have hvalue : m.2 = .obj data := by
      have hfound := (Dictionary.lookup_eq_some_iff hnode.nodup_names).2 hm
      rw [hname, hdata] at hfound
      exact (Option.some.inj hfound).symm
    have hread := NodeData.read_lift_eq ε h
    simp [fields, Field.of, hname, hvalue, hread]
  · simp [hname]

namespace Migration

variable {ms ms' node node' : Members}

theorem OldNode.read_migrateNode [Origin ε] [IsEmpty ε] (hnode : (Tree.obj node : Json).IsStored)
    (h : OldNode node node') :
    Node.read (.lift (.obj (migrateNode node')) : Tree ε)
      = Node.read (.lift (.obj (migrateNode node)) : Tree ε) := by
  obtain ⟨spelled, hspelled, rfl | hmoved⟩ := h
  · rw [migrateNode_eq_of_memberwise hnode hspelled]
  · have hsorted : Dictionary.Sorted spelled := by
      rw [Dictionary.sorted_iff_names, hspelled.names_eq]
      exact Dictionary.sorted_iff_names.1 (Tree.isStored_obj_iff.1 hnode).1
    obtain ⟨kind, data, hdata, hmigrated⟩ := hmoved.exists_migrateNode_eq hsorted
    have hlookup : (migrateNode spelled).lookup "data"
        = some (.obj (migrateData (isStart spelled) data)) := by
      rw [lookup_migrateNode, if_pos rfl, hdata, Option.map_some, onObject]
    rw [hmigrated, Node.read_lift_update (sorted_migrateNode hsorted) hlookup
      (erase_type_migrateData _ kind), migrateNode_eq_of_memberwise hnode hspelled]

theorem OldNode.list_read_migrate [Origin ε] [IsEmpty ε] {t t' : Json} (ht : t.IsStored)
    (h : OnObjects OldNode t t') :
    Shape.list Node.read (.lift (onObjects migrateNode t') : Tree ε)
      = Shape.list Node.read (.lift (onObjects migrateNode t) : Tree ε) := by
  cases h with
  | same => rfl
  | @changed ts ts' h =>
      rw [onObjects, onObjects, Tree.lift_arr, Tree.lift_arr]
      refine (Shape.readItems_congr ?_).symm
      rw [List.map_map, List.map_map, List.forall₂_map_left_iff, List.forall₂_map_right_iff]
      refine ((List.forall₂_and_left ts ts').2 ⟨Tree.isStored_arr_iff.1 ht, h⟩).imp ?_
      rintro t t' ⟨hstored, hitem⟩
      cases hitem with
      | same => rfl
      | changed hitem => exact (hitem.read_migrateNode hstored).symm

/-- Two values under a name that a workflow reads in the same way. -/
def ReadAlike (name : String) (t t' : Json) : Prop :=
  t' = t ∨ name = "nodes" ∧ Shape.list Node.read (.lift t' : Tree SetAside)
    = Shape.list Node.read (.lift t : Tree SetAside)

/-- Migrated, a document and an old spelling of it are read alike. -/
theorem OldDocument.migrateMembers (hms : (Tree.obj ms : Json).IsStored) (h : OldDocument ms ms') :
    Memberwise ReadAlike (migrateMembers ms) (migrateMembers ms') := by
  obtain ⟨spelled, hspelled, hrespelled⟩ := h
  obtain ⟨hsorted, hmembers⟩ := Tree.isStored_obj_iff.1 hms
  have hsorted' : Dictionary.Sorted spelled := by
    rw [Dictionary.sorted_iff_names, hspelled.names_eq]
    exact Dictionary.sorted_iff_names.1 hsorted
  have hcurrent : IsCurrent workflowRenames ms := by
    rw [IsCurrent, ← hspelled.names_eq]
    exact hrespelled.current
  rw [migrateMembers_eq_map, migrateMembers_eq_map, renameAll_of_isCurrent hcurrent,
    hrespelled.renameAll_eq separate_workflowRenames hsorted']
  refine hspelled.map fun m hm t' hold => ?_
  have ht := hmembers m hm
  obtain ⟨hname, hold⟩ | ⟨hname, hold⟩ | rfl := hold
  · rw [migrateMember, migrateMember, if_pos hname, if_pos hname]
    exact .inr ⟨hname, OldNode.list_read_migrate ht hold⟩
  · have hother : m.1 ≠ "nodes" := by rw [hname]; decide
    rw [migrateMember, migrateMember, if_neg hother, if_neg hother, if_pos hname, if_pos hname]
    exact .inl (hold.onObjects_eq ht (Respelled.renameAll_congr separate_edgeRenames))
  · exact .inl rfl

end Migration

namespace Workflow

open Migration

variable {ms ms' : Members}

theorem read_obj_eq_of_readAlike (h : Memberwise ReadAlike ms ms') :
    read (.obj ms') = read (.obj ms) := by
  have hown : Shape.readMembers fields Shape.skip [] Draft.start ms
      = Shape.readMembers fields Shape.skip [] Draft.start ms' := by
    refine Shape.readMembers_congr (h.imp ?_)
    rintro m m' ⟨hname, hsame | ⟨hnodes, -⟩⟩
    · exact ⟨hname.symm, fun field _ _ => by rw [hsame]⟩
    · refine ⟨hname.symm, fun field hfield hfieldName => ?_⟩
      have hmem := List.mem_map_of_mem (f := Field.name) hfield
      exact absurd (.inl (hfieldName.trans hnodes)) (ne_of_mem_names hmem)
  have hgraph : Graph.read (.obj (graphMembers ms)) = Graph.read (.obj (graphMembers ms')) := by
    refine congrArg (Reading.bind · _) (Shape.readMembers_congr ?_)
    rw [graphMembers, graphMembers, List.forall₂_map_left_iff, List.forall₂_map_right_iff]
    refine (List.rel_filter (fun m m' hm => ?_) h).imp ?_
    · simp [hm.1]
    · rintro m m' ⟨hname, hsame | ⟨hnodes, hread⟩⟩
      · exact ⟨hname.symm, fun field _ _ => by rw [hsame]⟩
      · refine ⟨hname.symm, ?_⟩
        simp [Graph.fields, Field.of, hnodes, hread]
  rw [read_obj, read_obj, hown, hgraph]

namespace Sample

def condition : Members :=
  [("data_source", .str "shop"), ("field", .str "total"), ("field_type", .str "number"),
    ("id", .str "c"), ("operator", .str "equals"), ("value", .num (.integer 1))]

def startConfig : Members :=
  [("data_source", .str "shop"), ("merchant_id", .str "m")]

def startNode (data : Members) : Members :=
  [("data", .obj data), ("id", .str "s"),
    ("position", .obj [("x", .num (.integer 0)), ("y", .num (.integer 0))]),
    ("type", .str "start")]

def startData (condition config : Members) : Members :=
  [("conditions", .arr [.obj condition]), ("config", .obj config), ("label", .str "Start")]

def edge : Members :=
  [("id", .str "e"), ("source", .str "s"), ("source_handle", .str "output"), ("target", .str "s")]

def document (edge node : Members) : Members :=
  [("created_at", .str "2025-01-01T00:00:00Z"), ("edges", .arr [.obj edge]), ("id", .str "w"),
    ("name", .str "W"), ("nodes", .arr [.obj node]), ("trigger_type", .str "event-based"),
    ("updated_at", .str "2025-01-01T00:00:00Z")]

def currentDocument : Members :=
  document edge (startNode (startData condition startConfig))

def oldStartData : Members :=
  startData (respell conditionRenames condition) (respell startConfigRenames startConfig)

def oldStartNode : Members :=
  Dictionary.update "data" (fun _ => .obj (Dictionary.insert "type" (.str "start") oldStartData))
    (Dictionary.erase "type" (startNode oldStartData))

def oldDocument : Members :=
  respell workflowRenames (document (respell edgeRenames edge) oldStartNode)

theorem oldDocument_currentDocument : OldDocument currentDocument oldDocument := by
  have hcondition := respelled_respell (show IsCurrent conditionRenames condition by decide)
  have hconfig := respelled_respell (show IsCurrent startConfigRenames startConfig by decide)
  have hedge := respelled_respell (show IsCurrent edgeRenames edge by decide)
  have hdata : OldData true (startData condition startConfig) oldStartData :=
    .cons ⟨rfl, .inl ⟨rfl, .changed (.cons (.changed hcondition) .nil)⟩⟩
      (.cons ⟨rfl, .inr (.inl ⟨rfl, rfl, .changed hconfig⟩)⟩ (.cons ⟨rfl, .inr (.inr rfl)⟩ .nil))
  have hstart : isStart (startNode (startData condition startConfig)) = true := by decide +kernel
  have hnode : OldNode (startNode (startData condition startConfig)) oldStartNode := by
    refine ⟨startNode oldStartData, .cons ⟨rfl, .inl ⟨rfl, .changed (hstart ▸ hdata)⟩⟩ ?_,
      .inr ⟨.str "start", oldStartData, by decide +kernel, by decide +kernel, rfl⟩⟩
    exact List.forall₂_same.2 fun m _ => ⟨rfl, .inr rfl⟩
  refine ⟨document (respell edgeRenames edge) oldStartNode, ?_, respelled_respell (by decide)⟩
  refine .cons ⟨rfl, .inr (.inr rfl)⟩ (.cons ⟨rfl, .inr (.inl ⟨rfl, .changed ?_⟩)⟩
    (.cons ⟨rfl, .inr (.inr rfl)⟩ (.cons ⟨rfl, .inr (.inr rfl)⟩
      (.cons ⟨rfl, .inl ⟨rfl, .changed ?_⟩⟩ ?_))))
  · exact .cons (.changed hedge) .nil
  · exact .cons (.changed hnode) .nil
  · exact List.forall₂_same.2 fun m _ => ⟨rfl, .inr (.inr rfl)⟩

end Sample

end Workflow

end SegmentFlow
