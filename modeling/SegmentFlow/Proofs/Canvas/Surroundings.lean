import SegmentFlow.Proofs.Canvas.Admission
/-!
# What surrounds a connection

Of all that a check looks at, two things lie outside the two nodes of the connection: the edges that
a start node has already, and the nodes of the row in between. More of either can only stop a
connection. And where it is nodes in between that stop it, they are the only thing that does, so that
each of them that goes away is one less in the way.
-/

namespace SegmentFlow

namespace Graph

variable {g : Graph} {id : String} {ids : List String} {n : Node} {nodes : List Node}
  {edges : List Edge}

/-- The graph without the nodes that have one of the ids. Its edges stay. -/
def without (g : Graph) (ids : List String) : Graph :=
  { g with nodes := g.nodes.filter fun n => n.id ∉ ids }

/-- The graph with more nodes and edges after its own. -/
def extended (g : Graph) (nodes : List Node) (edges : List Edge) : Graph :=
  ⟨g.nodes ++ nodes, g.edges ++ edges⟩

theorem node?_without (hid : id ∉ ids) : (g.without ids).node? id = g.node? id := by
  rw [node?, node?, without, List.find?_filter]
  congr 1
  funext n
  by_cases hn : n.id = id
  · simp [hn, hid]
  · simp [hn]

theorem node?_extended (hnode : g.node? id = some n) :
    (g.extended nodes edges).node? id = some n := by
  rw [node?] at hnode
  rw [node?, extended, List.find?_append, hnode, Option.some_or]

end Graph

namespace Geometry

variable {m : Geometry} {g : Graph} {c : Connection} {source target : Node} {ids : List String}
  {nodes : List Node} {edges : List Edge}

/-! ### The nodes in between

They are looked at last, so a connection that is stopped by them keeps all other rules. -/

/-- The ids of the nodes in between, in the order of the graph. -/
def skippedIds (m : Geometry) (g : Graph) (source target : Node) : List String :=
  (g.nodes.filter (m.between source target)).map Node.id

/-- The connection keeps all rules but perhaps the one on the nodes in between. -/
structure Reaches (m : Geometry) (g : Graph) (c : Connection) (source target : Node) : Prop where
  handles : FitsHandles c
  source_found : g.node? c.source = some source
  target_found : g.node? c.target = some target
  start : source.kind = .start →
    (∀ e ∈ g.outgoing source.id, e.target = target.id) ∧ target.kind = .condition
  column : ¬ target.position.x ≤ source.position.x + m.columnBuffer

theorem Reaches.check_eq (h : m.Reaches g c source target) : m.check g c
    = if m.skippedIds g source target = [] then .ok ()
      else .error (.skipsNodes (m.skippedIds g source target)) := by
  have hlayout : m.check g c = m.checkLayout g source target := by
    rw [check_of_found h.handles h.source_found h.target_found]
    by_cases hkind : source.kind = .start
    · rw [if_pos hkind, checkStart_eq_ok_iff.2 (h.start hkind)]
      rfl
    · rw [if_neg hkind]
  rw [hlayout, checkLayout, if_neg h.column, skippedIds]
  cases g.nodes.filter (m.between source target) <;> rfl

theorem checkStart_ne_skipsNodes : checkStart g source target ≠ .error (.skipsNodes ids) := by
  intro hskips
  rw [checkStart] at hskips
  split at hskips
  · cases hskips
  · split at hskips <;> cases hskips

theorem skippedIds_of_checkLayout
    (hskips : m.checkLayout g source target = .error (.skipsNodes ids)) :
    ¬ target.position.x ≤ source.position.x + m.columnBuffer
      ∧ m.skippedIds g source target = ids := by
  rw [checkLayout] at hskips
  split at hskips
  · cases hskips
  · next hcolumn =>
      split at hskips
      · cases hskips
      · exact ⟨hcolumn, Rejection.skipsNodes.inj (Except.error.inj hskips)⟩

/-- Of the rules on two nodes, it is the last one that names nodes in between. -/
theorem rules_eq_skipsNodes
    (hskips : (do if source.kind = .start then checkStart g source target
                  m.checkLayout g source target) = Except.error (Rejection.skipsNodes ids)) :
    (source.kind = .start →
        (∀ e ∈ g.outgoing source.id, e.target = target.id) ∧ target.kind = .condition)
      ∧ m.checkLayout g source target = .error (.skipsNodes ids) := by
  by_cases hkind : source.kind = .start
  · rw [if_pos hkind] at hskips
    cases hstart : checkStart g source target with
    | error r =>
        rw [hstart] at hskips
        exact absurd (hstart.trans hskips) checkStart_ne_skipsNodes
    | ok u =>
        rw [hstart] at hskips
        exact ⟨fun _ => checkStart_eq_ok_iff.1 hstart, hskips⟩
  · rw [if_neg hkind] at hskips
    exact ⟨fun heq => absurd heq hkind, hskips⟩

theorem exists_reaches_of_skipsNodes (hskips : m.check g c = .error (.skipsNodes ids)) :
    ∃ source target, m.Reaches g c source target ∧ m.skippedIds g source target = ids := by
  obtain ⟨-, hcheck⟩ | ⟨id, -, hcheck⟩ | ⟨source, target, hfits, hsource, htarget⟩ :=
    check_cases m g c
  · exact nomatch hcheck.symm.trans hskips
  · exact nomatch hcheck.symm.trans hskips
  · rw [check_of_found hfits hsource htarget] at hskips
    obtain ⟨hstart, hlayout⟩ := rules_eq_skipsNodes hskips
    obtain ⟨hcolumn, hids⟩ := skippedIds_of_checkLayout hlayout
    exact ⟨source, target, ⟨hfits, hsource, htarget, hstart, hcolumn⟩, hids⟩

/-! ### Nodes that go away -/

/-- The ends of a connection are not in between. -/
theorem ne_ends_of_mem_skippedIds {id : String} (hid : id ∈ m.skippedIds g source target) :
    id ≠ source.id ∧ id ≠ target.id := by
  obtain ⟨n, hn, rfl⟩ := List.mem_map.1 hid
  have hbetween : m.between source target n = true := (List.mem_filter.1 hn).2
  simp only [between, Bool.and_eq_true, decide_eq_true_eq] at hbetween
  exact ⟨hbetween.1.1.1.1, hbetween.1.1.1.2⟩

theorem skippedIds_without : m.skippedIds (g.without ids) source target
    = (m.skippedIds g source target).filter fun id => id ∉ ids := by
  rw [skippedIds, skippedIds, Graph.without, List.filter_comm, List.filter_map]
  rfl

theorem Reaches.without (h : m.Reaches g c source target)
    (hids : ids ⊆ m.skippedIds g source target) : m.Reaches (g.without ids) c source target := by
  have hsource : c.source ∉ ids := by
    intro hid
    apply (ne_ends_of_mem_skippedIds (hids hid)).1
    exact (Graph.id_of_node?_eq_some h.source_found).symm
  have htarget : c.target ∉ ids := by
    intro hid
    apply (ne_ends_of_mem_skippedIds (hids hid)).2
    exact (Graph.id_of_node?_eq_some h.target_found).symm
  refine ⟨h.handles, ?_, ?_, h.start, h.column⟩
  · rw [Graph.node?_without hsource, h.source_found]
  · rw [Graph.node?_without htarget, h.target_found]

/-- A connection that skips nodes is stopped by the nodes that are named, and by each of them. Without
all of them it passes; without some of them the others are named, in the same order. -/
theorem check_without (m : Geometry) (g : Graph) (c : Connection) (skipped : List String)
    (hskips : m.check g c = .error (.skipsNodes skipped)) (ids : List String)
    (hids : ids ⊆ skipped) :
    (skipped ⊆ ids → m.check (g.without ids) c = .ok ())
      ∧ (¬ skipped ⊆ ids → m.check (g.without ids) c
          = .error (.skipsNodes (skipped.filter fun id => id ∉ ids))) := by
  obtain ⟨source, target, hreaches, rfl⟩ := exists_reaches_of_skipsNodes hskips
  have hnone : (m.skippedIds g source target).filter (fun id => id ∉ ids) = []
      ↔ m.skippedIds g source target ⊆ ids := by
    simp [List.filter_eq_nil_iff, List.subset_def]
  rw [(hreaches.without hids).check_eq, skippedIds_without]
  exact ⟨fun hall => if_pos (hnone.2 hall), fun hsome => if_neg fun hnil => hsome (hnone.1 hnil)⟩

/-- Between `a` and `d` lie two nodes with the id `b`, one with the id `c`, and one that is below the
row. -/
def queue : Graph where
  nodes :=
    [.fresh "a" .action ⟨.ofNat 0, .ofNat 0⟩, .fresh "b" .action ⟨.ofNat 100, .ofNat 0⟩,
      .fresh "d" .action ⟨.ofNat 400, .ofNat 0⟩, .fresh "c" .action ⟨.ofNat 200, .ofNat 150⟩,
      .fresh "below" .action ⟨.ofNat 200, .ofNat 200⟩, .fresh "b" .action ⟨.ofNat 300, .ofNat 0⟩]
  edges := []

theorem check_without_queue :
    standard.check queue ⟨"a", "d", none, none⟩ = .error (.skipsNodes ["b", "c", "b"])
      ∧ standard.check (queue.without ["c"]) ⟨"a", "d", none, none⟩
          = .error (.skipsNodes ["b", "b"])
      ∧ standard.check (queue.without ["b", "c"]) ⟨"a", "d", none, none⟩ = .ok () := by
  have hskips : standard.check queue ⟨"a", "d", none, none⟩
      = .error (.skipsNodes ["b", "c", "b"]) := by
    decide +kernel
  refine ⟨hskips, ?_, ?_⟩
  · exact (check_without _ _ _ _ hskips ["c"] (by decide)).2 (by decide)
  · exact (check_without _ _ _ _ hskips ["b", "c"] (by decide)).1 (by decide)

/-! ### Nodes and edges that come -/

/-- Of an extended graph a connection needs no more than of the graph itself, as long as its nodes
are there already. -/
theorem Admits.of_extended (hadmits : m.Admits (g.extended nodes edges) c source target)
    (hsource : c.source ∈ g.nodes.map Node.id) (htarget : c.target ∈ g.nodes.map Node.id) :
    m.Admits g c source target := by
  have hfound {id : String} {n : Node} (hid : id ∈ g.nodes.map Node.id)
      (hn : (g.extended nodes edges).node? id = some n) : g.node? id = some n := by
    cases hsmaller : g.node? id with
    | none => exact absurd hid (Graph.node?_eq_none_iff.1 hsmaller)
    | some n' => rw [← Graph.node?_extended hsmaller, hn]
  refine ⟨hadmits.sourceHandle, hadmits.targetHandle, hfound hsource hadmits.source_found,
    hfound htarget hadmits.target_found, fun hkind => ?_, hadmits.column, fun n hn => ?_⟩
  · obtain ⟨hall, htarget⟩ := hadmits.start hkind
    refine ⟨fun e he => hall e ?_, htarget⟩
    obtain ⟨hedge, hid⟩ := Graph.mem_outgoing.1 he
    exact Graph.mem_outgoing.2 ⟨List.mem_append_left _ hedge, hid⟩
  · exact hadmits.row n (List.mem_append_left _ hn)

theorem ends_mem_of_check_eq_error {r : Rejection} (hfits : FitsHandles c)
    (hcheck : m.check g c = .error r) (hknown : ∀ id, r ≠ .unknownNode id) :
    c.source ∈ g.nodes.map Node.id ∧ c.target ∈ g.nodes.map Node.id := by
  obtain ⟨hhandles, -⟩ | ⟨id, -, hunknown⟩ | ⟨source, target, -, hsource, htarget⟩ :=
    check_cases m g c
  · exact absurd hfits hhandles
  · exact absurd (Except.error.inj (hcheck.symm.trans hunknown)) (hknown id)
  · rw [← Graph.id_of_node?_eq_some hsource, ← Graph.id_of_node?_eq_some htarget]
    exact ⟨List.mem_map_of_mem (Graph.mem_of_node?_eq_some hsource),
      List.mem_map_of_mem (Graph.mem_of_node?_eq_some htarget)⟩

/-- A connection that was rejected stays rejected when the graph grows, unless what it lacked was a
node. So one that passes on the larger graph passed on the smaller one, if its nodes were there. -/
theorem check_extended (m : Geometry) (g : Graph) (c : Connection) (nodes : List Node)
    (edges : List Edge) :
    (∀ r, m.check g c = .error r → (∀ id, r ≠ .unknownNode id) →
        ∃ r', m.check (g.extended nodes edges) c = .error r')
      ∧ (c.source ∈ g.nodes.map Node.id → c.target ∈ g.nodes.map Node.id →
          m.check (g.extended nodes edges) c = .ok () → m.check g c = .ok ()) := by
  constructor
  · intro r hrejected hknown
    cases hlarger : m.check (g.extended nodes edges) c with
    | error r' => exact ⟨r', rfl⟩
    | ok u =>
        obtain ⟨source, target, hadmits⟩ := check_eq_ok_iff.1 hlarger
        obtain ⟨hsource, htarget⟩ :=
          ends_mem_of_check_eq_error hadmits.fitsHandles hrejected hknown
        have hpass := check_eq_ok_iff.2 ⟨source, target, hadmits.of_extended hsource htarget⟩
        exact nomatch hrejected.symm.trans hpass
  · intro hsource htarget hlarger
    obtain ⟨source, target, hadmits⟩ := check_eq_ok_iff.1 hlarger
    exact check_eq_ok_iff.2 ⟨source, target, hadmits.of_extended hsource htarget⟩

def branch : Graph where
  nodes :=
    [.fresh "start" .start ⟨.ofNat 0, .ofNat 0⟩, .fresh "send" .action ⟨.ofNat 100, .ofNat 0⟩,
      .fresh "check" .condition ⟨.ofNat 300, .ofNat 0⟩]
  edges := []

/-- The branch with another node under an id that it has, this one a condition, and with the start
node connected. -/
def widerBranch : Graph :=
  branch.extended [.fresh "send" .condition ⟨.ofNat 200, .ofNat 0⟩]
    [⟨"e", "start", "check", none, none, none, true⟩]

/-- The rejection becomes another one. -/
theorem check_extended_branch :
    standard.check branch ⟨"start", "send", none, none⟩ = .error (.startTargetNotCondition .action)
      ∧ (∃ r', standard.check widerBranch ⟨"start", "send", none, none⟩ = .error r')
      ∧ standard.check widerBranch ⟨"start", "send", none, none⟩
          = .error (.startAlreadyConnected "check")
      ∧ standard.check widerBranch ⟨"send", "check", none, none⟩ = .ok ()
      ∧ standard.check branch ⟨"send", "check", none, none⟩ = .ok () := by
  have hrejected : standard.check branch ⟨"start", "send", none, none⟩
      = .error (.startTargetNotCondition .action) := by
    decide +kernel
  have hlarger : standard.check widerBranch ⟨"send", "check", none, none⟩ = .ok () := by
    decide +kernel
  refine ⟨hrejected, ?_, by decide +kernel, hlarger, ?_⟩
  · exact (check_extended _ _ _ _ _).1 _ hrejected fun _ => nofun
  · exact (check_extended _ _ _ _ _).2 (by decide) (by decide) hlarger

end Geometry

end SegmentFlow
