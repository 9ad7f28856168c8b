import SegmentFlow.Proofs.Workflow.Loaded
/-!
# What was loaded is loaded again

A workflow that was read from a document can be saved and opened again: it comes back with the
configs of its start nodes respelled, and from then on it does not change any more.

Often there is nothing left to respell, since migration has seen the config already. It has where a
node is an object with an object for its data and a text for its type. The reader takes other forms
too, such as the name of the type as the one member of an object; migration passes over these, so the
old names of a start node stay until the next time the workflow is opened.
-/

namespace SegmentFlow

open Migration Shape SegmentFlow.Field

variable {ε : Type} [Origin ε]

/-! ### The data of a node -/

theorem Node.migrated_eq_self_iff_isCurrent {n : Node} : n.migrated = n
    ↔ (n.kind = .start → ∀ members, n.data.config = some (.obj members) →
        IsCurrent startConfigRenames members) := by
  rw [Node.migrated_eq_self_iff]
  refine imp_congr_right fun _ => ?_
  cases n.data.config with
  | none => simp
  | some c =>
      cases c with
      | obj ms =>
          simp [StartConfig.respelled, onObject, renameAll_eq_self_iff separate_startConfigRenames]
      | _ => simp [StartConfig.respelled, onObject]

theorem StartConfig.respelled_respelled (c : Json) : respelled (respelled c) = respelled c := by
  refine respelled_eq_self_iff.2 fun members hmembers => ?_
  cases c with
  | obj ms =>
      obtain rfl := Tree.obj.inj hmembers
      have hnone (n : String) (hn : n ∈ startConfigRenames.map Prod.fst) :
          n ∉ (renameAll startConfigRenames ms).map Prod.fst :=
        Dictionary.lookup_eq_none_iff.1 (lookup_renameAll_of_mem separate_startConfigRenames hn)
      exact ⟨hnone _ (by decide), hnone _ (by decide)⟩
  | _ => nomatch hmembers

/-- A value in its stored form is taken as it is. -/
theorem Shape.value_anything_lift {t : Json} (ht : t.IsStored) :
    (anything (t.lift : Tree ε)).value = .ok t := by
  have hnormal : t.normal = t := ht
  have h : (anything : Shape ε Json).ReadsBack t t := readsBack_anything ht
  rwa [ReadsBack, hnormal] at h

namespace NodeData

/-- The tree is a config that was respelled. -/
def IsRespelled (t : Tree ε) : Prop :=
  ∃ c : Json, c.IsStored ∧ t = (StartConfig.respelled c).lift

theorem yields_respelled :
    (optional anything : Shape ε (Option Json)).Yields IsRespelled
      fun config => ∀ c ∈ config, StartConfig.respelled c = c := by
  refine yields_optional ?_
  rintro t ⟨⟨c, hc, rfl⟩, -⟩ c' hc'
  have hstored : (StartConfig.respelled c).IsStored := isStored_onObject_renameAll hc
  rw [value_anything_lift hstored] at hc'
  rw [← Except.ok.inj hc', StartConfig.respelled_respelled]

/-- What is read of migrated data would stay as it is in another migration. -/
theorem yields_migrated [IsEmpty ε] (isStart : Bool) :
    (read : Shape ε NodeData).Yields
      (fun t => ∃ data, (Tree.obj data : Json).IsStored
        ∧ t = (Tree.obj (migrateData isStart data)).lift)
      fun x => x.migrated isStart = x := by
  rintro t ⟨data, hdata, rfl⟩ x hread
  cases isStart with
  | false => rfl
  | true =>
      have hfields : ∀ f ∈ (fields : List (Field ε Draft)),
          f.Keeps (fun n t => n = "config" → IsRespelled t)
            fun d => ∀ c ∈ d.config, StartConfig.respelled c = c := by
        simp only [fields, List.forall_mem_cons]
        refine ⟨?_, ?_, ?_, ?_, keeps_of (fun t ht => yields_respelled t (ht rfl))
          fun config hconfig _ _ => hconfig, ?_, by simp⟩ <;>
        exact keeps_of_put fun _ _ hd => hd
      have hmembers : ∀ m ∈ (migrateData true data).map fun m => (m.1, (m.2.lift : Tree ε)),
          m.1 = "config" → IsRespelled m.2 := by
        rw [migrateData_eq_map, List.map_map, List.forall_mem_map]
        rintro ⟨n, c⟩ hm rfl
        exact ⟨c, (Tree.isStored_obj_iff.1 hdata).2 _ hm, rfl⟩
      rw [Tree.lift_obj] at hread
      obtain ⟨d, hd, hfinish⟩ :=
        exists_of_value_record_obj hfields (by simp [Draft.start]) hmembers hread
      simp only [Draft.finish, Option.bind_eq_bind, Option.bind_eq_some_iff] at hfinish
      obtain ⟨label, -, hx⟩ := hfinish
      obtain rfl := Option.some.inj hx
      have hconfig : d.config.map StartConfig.respelled = d.config := by
        cases hc : d.config with
        | none => rfl
        | some c => exact congrArg some (hd c hc)
      rw [migrated, if_pos rfl, hconfig]

end NodeData

/-! ### Plain nodes -/

/-- The value stands under the name once the members are lifted. -/
def Members.Has (ms : Members) (name : String) (t : Tree ε) : Prop :=
  ∃ u, ms.lookup name = some u ∧ t = u.lift

omit [Origin ε] in
theorem Members.has_of_mem_lift {ms : Members} (hms : Dictionary.Sorted ms) :
    ∀ m ∈ ms.map fun m => (m.1, (m.2.lift : Tree ε)), ms.Has m.1 m.2 := by
  rw [List.forall_mem_map]
  intro m hm
  exact ⟨m.2, (Dictionary.lookup_eq_some_iff hms.nodup_names).2 hm, rfl⟩

theorem NodeKind.name_of_ofName? {s : String} {k : NodeKind} (h : ofName? s = some k) :
    k.name = s := by
  simpa using List.find?_some h

theorem NodeKind.name_eq_start_iff {k : NodeKind} : k.name = start.name ↔ k = start := by
  cases k <;> decide

namespace Node

/-- Migration sees all of the node: it is an object with an object for its data, and its type, be it
its own or that of its data, is a text. -/
def IsPlain (t : Json) : Prop :=
  ∃ node data kind, t = .obj node ∧ node.lookup "data" = some (.obj data)
    ∧ (node.lookup "type").or (data.lookup "type") = some (.str kind)

section Plain

variable {node data : Members} {kind : String}

theorem lookup_type_withType (hdata : node.lookup "data" = some (.obj data))
    (hkind : (node.lookup "type").or (data.lookup "type") = some (.str kind)) :
    (withType node).lookup "type" = some (.str kind) := by
  rw [lookup_withType, if_pos rfl, dataType?, hdata]
  exact hkind

theorem yields_kind (htype : (withType node).lookup "type" = some (.str kind)) :
    (oneOf NodeKind.ofName? : Shape ε NodeKind).Yields ((migrateNode node).Has "type")
      fun k => k.name = kind := by
  rintro t ⟨u, hu, rfl⟩
  rw [lookup_migrateNode, if_neg (by decide), htype] at hu
  obtain rfl := Option.some.inj hu
  exact yields_oneOf (fun _ => NodeKind.name_of_ofName?) _ rfl

theorem yields_migrated_data [IsEmpty ε] (hstored : (Tree.obj node : Json).IsStored)
    (hdata : node.lookup "data" = some (.obj data)) :
    (NodeData.read : Shape ε NodeData).Yields ((migrateNode node).Has "data")
      fun x => x.migrated (isStart node) = x := by
  rintro t ⟨u, hu, rfl⟩
  rw [lookup_migrateNode, if_pos rfl, hdata] at hu
  obtain rfl := Option.some.inj hu
  have hmember := (Tree.isStored_obj_iff.1 hstored).2 _ (Dictionary.mem_of_lookup_eq_some hdata)
  exact NodeData.yields_migrated _ _ ⟨data, hmember, rfl⟩

end Plain

/-- The node has the type that migration saw, so migration respelled its config if it is a start
node. -/
theorem yields_migrated [IsEmpty ε] :
    (read : Shape ε Node).Yields
      (fun t => ∃ item : Json, item.IsStored ∧ IsPlain item
        ∧ t = (onObject migrateNode item).lift)
      fun n => n.migrated = n := by
  rintro t ⟨item, hstored, ⟨node, data, kind, rfl, hdata, hkind⟩, rfl⟩ n hread
  have htype := lookup_type_withType hdata hkind
  have hfields : ∀ f ∈ (fields : List (Field ε Draft)), f.Keeps (migrateNode node).Has
      fun d => (∀ k ∈ d.kind, k.name = kind) ∧ ∀ x ∈ d.data, x.migrated (isStart node) = x := by
    simp only [fields, List.forall_mem_cons]
    exact ⟨keeps_of_put fun _ _ hd => hd,
      keeps_of (yields_kind htype) fun k hk d hd => ⟨by simpa using hk, hd.2⟩,
      keeps_of_put fun _ _ hd => hd,
      keeps_of (yields_migrated_data hstored hdata) fun x hx d hd => ⟨hd.1, by simpa using hx⟩,
      by simp⟩
  have hsorted := sorted_migrateNode (Tree.isStored_obj_iff.1 hstored).1
  rw [onObject, Tree.lift_obj] at hread
  obtain ⟨d, ⟨hname, hmigrated⟩, hfinish⟩ :=
    exists_of_value_record_obj hfields (by simp) (Members.has_of_mem_lift hsorted) hread
  simp only [Draft.finish, Option.bind_eq_bind, Option.bind_eq_some_iff] at hfinish
  obtain ⟨id, -, k, hk, position, -, x, hx, hn⟩ := hfinish
  obtain rfl := Option.some.inj hn
  have hstart : isStart node = decide (k = .start) := by
    rw [isStart, htype, ← hname k hk, decide_eq_decide, Option.some.injEq, Tree.str.injEq]
    exact NodeKind.name_eq_start_iff
  rw [migrated, ← hstart, hmigrated x hx]

end Node

/-! ### Plain documents -/

namespace Workflow

variable {w : Workflow} {d : Json}

/-- All nodes of the document are plain ones. -/
def IsPlain (document : Json) : Prop :=
  ∀ ms ts, document = .obj ms → (renameAll workflowRenames ms).lookup "nodes" = some (.arr ts) →
    ∀ t ∈ ts, Node.IsPlain t

/-- What stands under `nodes` in the graph of a migrated document. -/
def MigratedNodes (ms : Members) (t : Tree ε) : Prop :=
  ∃ u, (renameAll workflowRenames ms).lookup "nodes" = some u ∧ t = (onObjects migrateNode u).lift

theorem yields_migrated_nodes [IsEmpty ε] {ms : Members} (hstored : (Tree.obj ms : Json).IsStored)
    (hplain : IsPlain (.obj ms)) :
    (list Node.read : Shape ε (List Node)).Yields (MigratedNodes ms)
      fun nodes => ∀ n ∈ nodes, n.migrated = n := by
  rintro t ⟨u, hu, rfl⟩ nodes hnodes
  cases u with
  | arr ts =>
      have hts : (Tree.arr ts : Json).IsStored := by
        obtain ⟨m, hm, heq⟩ := exists_of_mem_renameAll (Dictionary.mem_of_lookup_eq_some hu)
        rw [show Tree.arr ts = m.2 from heq.symm]
        exact (Tree.isStored_obj_iff.1 hstored).2 m hm
      rw [onObjects, Tree.lift_arr, List.map_map] at hnodes
      refine yields_readItems Node.yields_migrated (List.forall_mem_map.2 fun t ht => ?_) hnodes
      exact ⟨t, Tree.isStored_arr_iff.1 hts t ht, hplain ms ts rfl hu t ht, rfl⟩
  | flaw e => exact e.elim
  | _ => exact absurd hnodes value_mismatch_ne_ok

theorem migratedNodes_of_mem_graphMembers {ms : Members} (hms : Dictionary.Sorted ms) :
    ∀ m ∈ graphMembers (migrateMembers ms), m.1 = "nodes" → MigratedNodes ms m.2 := by
  rw [graphMembers, migrateMembers_eq_map, List.forall_mem_map]
  intro m hm hname
  obtain ⟨⟨n, u⟩, hu, rfl⟩ := List.mem_map.1 (List.mem_of_mem_filter hm)
  obtain rfl : n = "nodes" := hname
  exact ⟨u, (Dictionary.lookup_eq_some_iff (sorted_renameAll hms).nodup_names).2 hu, rfl⟩

/-- Migration leaves nothing to respell in the nodes of a plain document. -/
theorem migrated_eq_of_isPlain (hstored : d.IsStored) (hplain : IsPlain d)
    (h : (ofDocument d).value = .ok w) : w.migrated = w := by
  obtain ⟨ms, rfl, hread⟩ := exists_of_value_ofDocument h
  obtain ⟨-, -, -, -, hgraph, -⟩ := exists_of_value_read_obj hread
  have hfields : ∀ f ∈ (Graph.fields : List (Field SetAside Graph)), f.Keeps
      (fun n t => n = "nodes" → MigratedNodes ms t) fun g => ∀ n ∈ g.nodes, n.migrated = n := by
    simp only [Graph.fields, List.forall_mem_cons]
    exact ⟨keeps_of (fun t ht => yields_migrated_nodes hstored hplain t (ht rfl))
      fun nodes hnodes _ _ => hnodes, keeps_of_put fun _ _ hg => hg, by simp⟩
  obtain ⟨g, hg, hfinish⟩ := exists_of_value_record_obj hfields (by simp [Graph.empty])
    (migratedNodes_of_mem_graphMembers (Tree.isStored_obj_iff.1 hstored).1) hgraph
  obtain rfl := Option.some.inj hfinish
  exact migrated_eq_self_iff.2 hg

theorem migrated_migrated (w : Workflow) : w.migrated.migrated = w.migrated := by
  refine migrated_eq_self_iff.2 (List.forall_mem_map.2 fun n _ => ?_)
  refine Node.migrated_eq_self_iff.2 fun hstart c hc => ?_
  have hconfig : n.migrated.data.config = n.data.config.map StartConfig.respelled :=
    if_pos (decide_eq_true hstart)
  rw [hconfig] at hc
  obtain ⟨c', -, rfl⟩ := Option.map_eq_some_iff.1 hc
  exact StartConfig.respelled_respelled c'

/-- A workflow that was loaded from the text of a plain document is opened again as it is. -/
theorem value_ofDocument_of_parse {text : String} (hparse : Tree.parse text = .ok d)
    (hplain : IsPlain d) (h : (load text).value = .ok w) :
    (ofDocument w.toTree.normal).value = .ok w := by
  have hstored : d.IsStored := (Tree.isStored_and_finiteNumbers_of_parse hparse).1
  rw [value_ofDocument_of_value_load h]
  rw [load, hparse] at h
  rw [migrated_eq_of_isPlain hstored hplain h]

/-- A workflow that was loaded can be saved and loaded again. It then has the old names in the
configs of its start nodes respelled, and nothing changes after that. It is the same workflow exactly
if there were no old names left, as is the case if the document was a plain one. -/
theorem value_ofDocument_reloaded (d : Json) (hstored : d.IsStored) (hfinite : d.FiniteNumbers)
    (w : Workflow) (h : (ofDocument d).value = .ok w) :
    (ofDocument w.toTree.normal).value = .ok w.migrated
      ∧ (ofDocument w.migrated.toTree.normal).value = .ok w.migrated
      ∧ ((ofDocument w.toTree.normal).value = .ok w
          ↔ ∀ n ∈ w.graph.nodes, n.kind = .start → ∀ members, n.data.config = some (.obj members) →
              IsCurrent startConfigRenames members)
      ∧ (IsPlain d → (ofDocument w.toTree.normal).value = .ok w) := by
  have hw : w.IsStorable := isStorable_of_value_ofDocument hfinite h
  have hreloaded : (ofDocument w.toTree.normal).value = .ok w.migrated :=
    value_ofDocument_toTree hw
  refine ⟨hreloaded, ?_, ?_, fun hplain => ?_⟩
  · rw [value_ofDocument_toTree hw.migrated, migrated_migrated]
  · rw [hreloaded, Except.ok.injEq, migrated_eq_self_iff]
    exact forall₂_congr fun n _ => Node.migrated_eq_self_iff_isCurrent
  · rw [hreloaded, migrated_eq_of_isPlain hstored hplain h]

/-! ### Two spellings of a type -/

namespace Reloaded

/-- A node with a type as it is written, and with an old name in its config. -/
def node (kind : Json) : Members :=
  [("data", .obj [("config", .obj [("dataSource", .str "CRM")]), ("label", .str "Start")]),
    ("id", .str "s"), ("position", .obj [("x", .ofNat 0), ("y", .ofNat 0)]), ("type", kind)]

def members (kind : Json) : Members :=
  [("created_at", .str "2025-01-01T00:00:00Z"), ("edges", .arr []), ("id", .str "w"),
    ("name", .str "W"), ("nodes", .arr [.obj (node kind)]), ("trigger_type", .str "event-based"),
    ("updated_at", .str "2025-01-01T00:00:00Z")]

def document (kind : Json) : Json :=
  .obj (members kind)

def workflow (config : Members) : Workflow :=
  { draft "w" "W" .event ⟨⟨2025, 1, 1⟩, 0, 0, 0, 0⟩ with
    graph :=
      { nodes :=
          [⟨"s", .start, ⟨.ofNat 0, .ofNat 0⟩,
            { NodeData.labelled "Start" with config := some (.obj config) }⟩]
        edges := [] } }

theorem finiteNumbers_document {kind : Json} (hkind : kind.FiniteNumbers) :
    (document kind).FiniteNumbers := by
  have hzero : (Number.integer 0).IsFinite := by decide +kernel
  simp [document, members, node, Tree.FiniteNumbers, Tree.FiniteNumbersItems,
    Tree.FiniteNumbersMembers, Tree.ofNat, hzero, hkind]

theorem isPlain_document (kind : String) : IsPlain (document (.str kind)) := by
  rintro ms ts hms hts t ht
  obtain rfl : members (.str kind) = ms := Tree.obj.inj hms
  have hcurrent : IsCurrent workflowRenames (members (.str kind)) := by
    simp [IsCurrent, workflowRenames, members]
  rw [renameAll_of_isCurrent hcurrent] at hts
  obtain rfl : [.obj (node (.str kind))] = ts := by
    simpa [members, Dictionary.lookup_cons_eq] using hts
  obtain rfl := List.mem_singleton.1 ht
  exact ⟨node (.str kind), _, kind, rfl, rfl, rfl⟩

/-- Where the type is a text, migration respells the config, and the workflow stays. -/
theorem value_ofDocument_reloaded_plain :
    (document (.str "start")).IsStored ∧ (document (.str "start")).FiniteNumbers
      ∧ IsPlain (document (.str "start"))
      ∧ (ofDocument (document (.str "start"))).value = .ok (workflow [("data_source", .str "CRM")])
      ∧ (ofDocument (workflow [("data_source", .str "CRM")]).toTree.normal).value
          = .ok (workflow [("data_source", .str "CRM")]) := by
  have hstored : (document (.str "start")).normal = document (.str "start") := by decide +kernel
  have hfinite : (document (.str "start")).FiniteNumbers :=
    finiteNumbers_document (by simp [Tree.FiniteNumbers])
  have hloaded : (ofDocument (document (.str "start"))).value
      = .ok (workflow [("data_source", .str "CRM")]) := by
    decide +kernel
  obtain ⟨-, -, -, hplain⟩ := value_ofDocument_reloaded _ hstored hfinite _ hloaded
  exact ⟨hstored, hfinite, isPlain_document _, hloaded, hplain (isPlain_document _)⟩

/-- Where the type is the one member of an object, the old name is read, and it does not stay. -/
theorem reopened_otherwise :
    (document (.obj [("start", .null)])).IsStored
      ∧ (document (.obj [("start", .null)])).FiniteNumbers
      ∧ (ofDocument (document (.obj [("start", .null)]))).value
          = .ok (workflow [("dataSource", .str "CRM")])
      ∧ (ofDocument (workflow [("dataSource", .str "CRM")]).toTree.normal).value
          ≠ .ok (workflow [("dataSource", .str "CRM")]) := by
  have hstored : (document (.obj [("start", .null)])).normal = document (.obj [("start", .null)]) := by
    decide +kernel
  have hkind : (Tree.obj [("start", .null)] : Json).FiniteNumbers := by
    simp [Tree.FiniteNumbers, Tree.FiniteNumbersMembers]
  exact ⟨hstored, finiteNumbers_document hkind, by decide +kernel, by decide +kernel⟩

end Reloaded

end Workflow

end SegmentFlow
