import SegmentFlow.Proofs.Dictionary
import SegmentFlow.Proofs.Editor.WellFormed
/-!
# Queries follow the nodes

The queries of a workflow are compiled anew from all of its nodes, and kept by id. Where no id is
repeated, the query under an id depends on one node alone: on whether it is a condition node, and on
its conditions. So an operation can change the queries only through what it does to these, which is
said here of each change that an operation may make to the graph.
-/

namespace SegmentFlow

namespace Graph

variable {g : Graph} {id k : String} {n : Node}

/-! ### The conditions under an id -/

/-- The conditions of the condition node with an id, if there is one. -/
def conditions? (g : Graph) (id : String) : Option (List Condition) :=
  ((g.node? id).filter fun n => n.kind = .condition).map fun n => n.data.conditions

theorem conditions?_eq_some_iff (hids : (g.nodes.map Node.id).Nodup) {cs : List Condition} :
    g.conditions? id = some cs
      ↔ ∃ n ∈ g.nodes, n.kind = .condition ∧ n.id = id ∧ n.data.conditions = cs := by
  simp only [conditions?, Option.map_eq_some_iff, Option.filter_eq_some_iff, decide_eq_true_eq]
  constructor
  · rintro ⟨n, ⟨hnode, hkind⟩, hconditions⟩
    exact ⟨n, mem_of_node?_eq_some hnode, hkind, id_of_node?_eq_some hnode, hconditions⟩
  · rintro ⟨n, hn, hkind, rfl, hconditions⟩
    exact ⟨n, ⟨node?_eq_some hids hn, hkind⟩, hconditions⟩

theorem conditions?_congr {g' : Graph} (hnode : g'.node? k = g.node? k) :
    g'.conditions? k = g.conditions? k := by
  rw [conditions?, hnode, conditions?]

/-! ### What a change leaves of them -/

theorem node?_concat :
    ({ g with nodes := g.nodes ++ [n] } : Graph).node? k
      = (g.node? k).or (if n.id = k then some n else none) := by
  simp [node?, List.find?_append, List.find?_singleton]

theorem node?_updateNode {change : Node → Node} (hid : ∀ n, (change n).id = n.id) :
    (g.updateNode id change).node? k
      = if k = id then (g.node? k).map change else g.node? k := by
  rw [node?, node?, updateNode]
  dsimp only
  induction g.nodes with
  | nil => simp [updateNode.go]
  | cons n ns ih =>
      rw [updateNode.go]
      split
      · next hn =>
          rw [List.find?_cons, List.find?_cons, hid, hn]
          by_cases hk : k = id
          · simp [hk]
          · simp [hk, Ne.symm hk]
      · next hn =>
          rw [List.find?_cons, List.find?_cons, ih]
          by_cases hk : n.id = k
          · simp [hk, hk ▸ hn]
          · simp [hk]

theorem node?_eraseNode (hk : k ≠ id) : (g.eraseNode id).node? k = g.node? k := by
  change (g.nodes.eraseP fun n => n.id = id).find? _ = _
  rw [node?]
  induction g.nodes with
  | nil => rfl
  | cons n ns ih =>
      rw [List.eraseP_cons]
      by_cases hn : n.id = id
      · rw [decide_eq_true hn, cond_true, List.find?_cons, decide_eq_false (hn ▸ hk.symm)]
      · rw [decide_eq_false hn, cond_false, List.find?_cons, List.find?_cons, ih]

theorem conditions?_concat (hnew : g.node? n.id = none) (hk : n.kind = .condition → k ≠ n.id) :
    ({ g with nodes := g.nodes ++ [n] } : Graph).conditions? k = g.conditions? k := by
  rw [conditions?, conditions?, node?_concat]
  by_cases hid : n.id = k
  · rw [← hid, hnew, Option.none_or, if_pos rfl, Option.filter_some,
      if_neg fun hkind => hk (of_decide_eq_true hkind) hid.symm]
    rfl
  · rw [if_neg hid, Option.or_none]

/-- A change of one node matters only where it touches the kind or the conditions. -/
theorem conditions?_updateNode {change : Node → Node} (hid : ∀ n, (change n).id = n.id)
    (hkind : ∀ n, (change n).kind = n.kind)
    (hconditions : ∀ n, (change n).data.conditions = n.data.conditions) :
    (g.updateNode id change).conditions? k = g.conditions? k := by
  rw [conditions?, conditions?, node?_updateNode hid]
  split
  · cases g.node? k with
    | none => rfl
    | some n =>
        simp only [Option.map_some, Option.filter_some, hkind]
        split <;> simp [hconditions]
  · rfl

end Graph

namespace Editor

variable {m : Geometry} {g g' : Graph} {o : Operation} {k : String}

/-- The id of the node whose query the operation is about. -/
def Operation.target? : Operation → Option String
  | .addNode n => some n.id
  | .setConditions id _ => some id
  | .deleteNode id => some id
  | _ => none

/-- Away from the node that an operation is about, no conditions change. -/
theorem Step.conditions?_eq (hstep : Step m g o g') (hk : o.target? ≠ some k) :
    g'.conditions? k = g.conditions? k := by
  have hne {id : String} (hid : some id ≠ some k) : k ≠ id := fun heq => hid (congrArg some heq.symm)
  cases hstep with
  | kept => rfl
  | nodeAdded hnew => exact Graph.conditions?_concat hnew fun _ => hne hk
  | startAdded hnew => exact Graph.conditions?_concat hnew nofun
  | nodeMoved => exact Graph.conditions?_updateNode (fun _ => rfl) (fun _ => rfl) fun _ => rfl
  | conditionsSet id cs =>
      refine Graph.conditions?_congr ?_
      rw [Graph.node?_updateNode, if_neg (hne hk)]
      exact fun _ => rfl
  | nodeDeleted => exact Graph.conditions?_congr (Graph.node?_eraseNode (hne hk))
  | edgeDrawn => rfl
  | edgeDeleted => rfl

theorem Step.nodup_ids (hstep : Step m g o g') (hids : (g.nodes.map Node.id).Nodup) :
    (g'.nodes.map Node.id).Nodup := by
  cases hstep with
  | kept => exact hids
  | nodeAdded hnew => exact Graph.nodup_ids_concat hids hnew
  | startAdded hnew => exact Graph.nodup_ids_concat hids hnew
  | nodeMoved id p =>
      rw [Graph.ids_of_roles (g.roles_updateNode id _)]
      · exact hids
      · exact fun _ => rfl
  | conditionsSet id cs =>
      rw [Graph.ids_of_roles (g.roles_updateNode id _)]
      · exact hids
      · exact fun _ => rfl
  | nodeDeleted => exact hids.sublist (List.eraseP_sublist.map Node.id)
  | edgeDrawn => exact hids
  | edgeDeleted => exact hids

end Editor

/-! ### The queries of a graph -/

namespace Compile.Assembler

variable (a : Assembler) {g : Graph} {id : String}

/-- The entry that a condition node adds to the queries. -/
def entry (n : Node) : String × Query.Document :=
  (n.id, (a.assemble n.data.conditions).value)

theorem value_foldl_addQuery (nodes : List Node) (queries : Traced Queries) :
    (nodes.foldl a.addQuery queries).value
      = ((nodes.filter fun n => n.kind = .condition).map a.entry).foldl
          (fun queries entry => Dictionary.insert entry.1 entry.2 queries) queries.value := by
  induction nodes generalizing queries with
  | nil => rfl
  | cons n ns ih =>
      rw [List.foldl_cons, ih, addQuery, List.filter_cons]
      by_cases hkind : n.kind = .condition
      · simp [hkind, entry]
      · simp [hkind]

theorem value_queries (g : Graph) :
    (a.queries g).value = Dictionary.ofList ((g.nodesOfKind .condition).map a.entry) :=
  a.value_foldl_addQuery g.nodes ⟨[], []⟩

theorem sorted_queries (g : Graph) : Dictionary.Sorted (a.queries g).value := by
  rw [value_queries]
  exact Dictionary.sorted_ofList

theorem nodup_names_entries (hids : (g.nodes.map Node.id).Nodup) :
    (((g.nodesOfKind .condition).map a.entry).map Prod.fst).Nodup := by
  rw [List.map_map]
  exact hids.sublist (List.filter_sublist.map Node.id)

theorem lookup_queries (hids : (g.nodes.map Node.id).Nodup) :
    (a.queries g).value.lookup id
      = (g.conditions? id).map fun cs => (a.assemble cs).value := by
  have hnodup := a.nodup_names_entries hids
  ext d
  rw [value_queries, Dictionary.lookup_ofList hnodup, Dictionary.lookup_eq_some_iff hnodup,
    Option.map_eq_some_iff]
  simp only [Graph.conditions?_eq_some_iff hids, List.mem_map, Graph.nodesOfKind, List.mem_filter,
    decide_eq_true_eq, entry, Prod.mk.injEq]
  constructor
  · rintro ⟨n, ⟨hn, hkind⟩, hid, hd⟩
    exact ⟨n.data.conditions, ⟨n, hn, hkind, hid, rfl⟩, hd⟩
  · rintro ⟨cs, ⟨n, hn, hkind, hid, rfl⟩, hd⟩
    exact ⟨n, ⟨hn, hkind⟩, hid, hd⟩

/-- Each condition node has one query, which is that of its conditions, and nothing else has one. -/
structure QueryPerNode (g : Graph) (queries : Queries) : Prop where
  names : (queries.map Prod.fst).Perm ((g.nodesOfKind .condition).map Node.id)
  query : ∀ n ∈ g.nodes, n.kind = .condition →
    queries.lookup n.id = some (a.assemble n.data.conditions).value
  no_other : ∀ id, (∀ n ∈ g.nodes, n.kind = .condition → n.id ≠ id) → queries.lookup id = none

theorem queryPerNode_queries (hids : (g.nodes.map Node.id).Nodup) :
    a.QueryPerNode g (a.queries g).value := by
  refine ⟨?_, fun n hn hkind => ?_, fun id hnone => ?_⟩
  · rw [value_queries]
    have hperm := (Dictionary.perm_ofList (a.nodup_names_entries hids)).map Prod.fst
    rwa [List.map_map] at hperm
  · rw [a.lookup_queries hids, (Graph.conditions?_eq_some_iff hids).2 ⟨n, hn, hkind, rfl, rfl⟩,
      Option.map_some]
  · rw [a.lookup_queries hids, Option.map_eq_none_iff, Option.eq_none_iff_forall_ne_some]
    intro cs hcs
    obtain ⟨n, hn, hkind, hid, -⟩ := (Graph.conditions?_eq_some_iff hids).1 hcs
    exact hnone n hn hkind hid

end Compile.Assembler

/-! ### One operation -/

namespace Editor

variable {e : Editor} {id : String}

theorem lookup_compile (hids : (e.graph.nodes.map Node.id).Nodup) :
    e.compile.value.lookup id
      = (e.graph.conditions? id).map fun cs => (e.assembler.assemble cs).value :=
  e.assembler.lookup_queries hids

theorem nodup_ids_after (hids : (e.graph.nodes.map Node.id).Nodup) (o : Operation) :
    ((e.after o).graph.nodes.map Node.id).Nodup :=
  (e.step_after o).nodup_ids hids

theorem lookup_compile_after (hids : (e.graph.nodes.map Node.id).Nodup) {o : Operation}
    (hsame : (e.after o).graph.conditions? id = e.graph.conditions? id) :
    (e.after o).compile.value.lookup id = e.compile.value.lookup id := by
  rw [lookup_compile (nodup_ids_after hids o), lookup_compile hids, e.assembler_after, hsame]

/-- A node is added only where nothing is under its id. -/
theorem conditions?_after_addNode {n : Node} {cs : List Condition}
    (hcs : e.graph.conditions? id = some cs) :
    (e.after (.addNode n)).graph.conditions? id = some cs := by
  rw [← hcs]
  rcases e.graph_addNode n with hkept | ⟨hnew, hadded⟩
  · exact congrArg (Graph.conditions? · id) hkept
  · refine (congrArg (Graph.conditions? · id) hadded).trans ?_
    refine Graph.conditions?_concat hnew fun _ hid => ?_
    rw [Graph.conditions?, hid, hnew] at hcs
    exact nomatch hcs

/-- Where no id is repeated, each condition node has one query, that of its conditions, and there is
no other; and so it stays whatever is done next. An operation that is not about one node by its id
leaves all queries alone, setting conditions, deleting and adding can change the query of that node
only, and adding takes none away. -/
theorem compile_follows_nodes (e : Editor) (hids : (e.graph.nodes.map Node.id).Nodup) :
    e.assembler.QueryPerNode e.graph e.compile.value
      ∧ ∀ o : Operation,
        e.assembler.QueryPerNode (e.after o).graph (e.after o).compile.value
          ∧ (o.target? = none → (e.after o).compile.value = e.compile.value)
          ∧ (∀ id, o.target? ≠ some id →
              (e.after o).compile.value.lookup id = e.compile.value.lookup id)
          ∧ ∀ n, o = .addNode n → ∀ entry ∈ e.compile.value, entry ∈ (e.after o).compile.value := by
  have hkept {o : Operation} {id : String} (hid : o.target? ≠ some id) :
      (e.after o).compile.value.lookup id = e.compile.value.lookup id :=
    lookup_compile_after hids ((e.step_after o).conditions?_eq hid)
  have hsorted (e : Editor) : Dictionary.Sorted e.compile.value := e.assembler.sorted_queries e.graph
  refine ⟨e.assembler.queryPerNode_queries hids, fun o => ⟨?_, fun hnone => ?_, fun id => hkept, ?_⟩⟩
  · rw [← e.assembler_after o]
    exact (e.after o).assembler.queryPerNode_queries (nodup_ids_after hids o)
  · exact (hsorted _).eq_of_lookup_eq (hsorted e) fun id => hkept (hnone ▸ nofun)
  · rintro n rfl ⟨id, d⟩ hentry
    have hd := (Dictionary.lookup_eq_some_iff (hsorted e).nodup_names).2 hentry
    rw [lookup_compile hids, Option.map_eq_some_iff] at hd
    obtain ⟨cs, hcs, rfl⟩ := hd
    rw [← Dictionary.lookup_eq_some_iff (hsorted _).nodup_names,
      lookup_compile (nodup_ids_after hids _), conditions?_after_addNode hcs, e.assembler_after,
      Option.map_some]

def twoChecks : Editor :=
  .opening
    { Workflow.draft "canvas" "Canvas" .event ⟨⟨2025, 1, 1⟩, 0, 0, 0, 0⟩ with
      graph :=
        { nodes :=
            [.fresh "second" .condition ⟨.ofNat 200, .ofNat 0⟩,
              .fresh "mail" .action ⟨.ofNat 0, .ofNat 0⟩,
              .fresh "first" .condition ⟨.ofNat 100, .ofNat 0⟩]
          edges := [] } }
    .standard .standard

def isEmailGiven : Condition :=
  ⟨"c", some "CRM", none, "email", .text, .isNotEmpty, .text "", none, none⟩

theorem compile_twoChecks_setConditions :
    (twoChecks.graph.nodes.map Node.id).Nodup
      ∧ twoChecks.compile.value.map Prod.fst = ["first", "second"]
      ∧ (twoChecks.after (.setConditions "first" [isEmailGiven])).compile.value.lookup "second"
          = twoChecks.compile.value.lookup "second"
      ∧ (twoChecks.after (.setConditions "first" [isEmailGiven])).compile.value.lookup "first"
          ≠ twoChecks.compile.value.lookup "first" := by
  have hids : (twoChecks.graph.nodes.map Node.id).Nodup := by decide
  obtain ⟨-, hafter⟩ := compile_follows_nodes twoChecks hids
  obtain ⟨-, -, hkept, -⟩ := hafter (.setConditions "first" [isEmailGiven])
  exact ⟨hids, by decide +kernel, hkept "second" (by decide), by decide +kernel⟩

end Editor

end SegmentFlow
