import SegmentFlow.Proofs.Json.Records
import SegmentFlow.Workflow.Basic
/-!
# Reading workflows

A workflow reads its own members first and sets those of its graph aside. The two do not interfere:
the own members are read as those of any record, and the graph is a record of its own, read from the
members that bear its names.
-/

namespace SegmentFlow.Workflow

variable {n : String} {t : Json} {ms : List (String × Json)}

/-- The members of the graph, as they are set aside. -/
def graphMembers (ms : List (String × Json)) : List (String × Tree SetAside) :=
  (ms.filter fun m => m.1 = "nodes" ∨ m.1 = "edges").map fun m => (m.1, m.2.lift)

theorem graphMembers_cons_of_pos (hn : n = "nodes" ∨ n = "edges") :
    graphMembers ((n, t) :: ms) = (n, t.lift) :: graphMembers ms := by
  rw [graphMembers, List.filter_cons_of_pos (by simpa using hn)]
  rfl

theorem graphMembers_cons_of_neg (hn : ¬ (n = "nodes" ∨ n = "edges")) :
    graphMembers ((n, t) :: ms) = graphMembers ms := by
  rw [graphMembers, List.filter_cons_of_neg (by simpa using hn)]
  rfl

def Draft.withGraph (d : Draft) (graph : List (String × Tree SetAside)) : Draft :=
  { d with graph }

theorem ne_of_mem_names
    (hn : n ∈ (fields : List (Field Empty Draft)).map Field.name) : ¬ (n = "nodes" ∨ n = "edges") := by
  revert hn
  simp only [fields, Field.of, List.map_cons, List.map_nil]
  revert n
  decide

theorem put_withGraph : ∀ field ∈ (fields : List (Field Empty Draft)), ∀ t put,
    (field.read t).value = .ok put →
      ∀ (d : Draft) graph, put (d.withGraph graph) = (put d).withGraph graph := by
  simp only [fields, List.forall_mem_cons]
  refine ⟨?_, ?_, ?_, ?_, ?_, ?_, ?_, ?_, by simp⟩ <;>
  · intro t put hread d graph
    obtain ⟨v, -, rfl⟩ := Reading.exists_of_value_map_eq_ok hread
    rfl

theorem readOther_eq (name : String) (t : Json) :
    readOther name t = Reading.pure fun d =>
      if name = "nodes" ∨ name = "edges" then d.withGraph (d.graph ++ [(name, t.lift)]) else d := by
  rw [readOther, Shape.setAside, Tree.sound_eq_lift]
  rfl

theorem readMembers_readOther (ms : List (String × Json)) (seen : List String) (d : Draft)
    (graph : List (String × Tree SetAside)) :
    Shape.readMembers fields readOther seen (d.withGraph graph) ms
      = (Shape.readMembers fields Shape.skip seen d ms).map fun d =>
          d.withGraph (graph ++ graphMembers ms) := by
  induction ms generalizing seen d graph with
  | nil => rw [graphMembers, List.filter_nil, List.map_nil, List.append_nil]; rfl
  | cons m ms ih =>
      obtain ⟨n, t⟩ := m
      cases hfield : Keyed.get? Field.name n (fields : List (Field Empty Draft)) with
      | some field =>
          have hmem : field ∈ fields := List.mem_of_find?_eq_some hfield
          have hn : n ∈ (fields : List (Field Empty Draft)).map Field.name := by
            rw [← Keyed.get?_isSome_iff, hfield]
            rfl
          rw [Shape.readMembers_cons_of_eq_some hfield, Shape.readMembers_cons_of_eq_some hfield,
            graphMembers_cons_of_neg (ne_of_mem_names hn)]
          split
          · rfl
          · rw [Reading.map_bind]
            refine Reading.bind_congr fun put hread => ?_
            rw [put_withGraph field hmem t put hread, ih]
      | none =>
          rw [Shape.readMembers_cons_of_eq_none hfield, Shape.readMembers_cons_of_eq_none hfield,
            readOther_eq, Shape.skip_eq, Reading.pure_bind, Reading.pure_bind, id_eq]
          split
          · next hgraph =>
              rw [graphMembers_cons_of_pos hgraph, List.append_cons]
              exact ih seen d (graph ++ [(n, t.lift)])
          · next hother =>
              rw [graphMembers_cons_of_neg hother]
              exact ih seen d graph

theorem read_obj (ms : List (String × Json)) :
    read (.obj ms)
      = (Shape.readMembers fields Shape.skip [] Draft.start ms).bind fun d =>
          (Shape.finished (fun d => d.finish .empty) d).bind fun w =>
            (Graph.read (.obj (graphMembers ms))).map fun graph => { w with graph } := by
  change (Shape.readMembers fields readOther [] (Draft.start.withGraph []) ms).bind _ = _
  rw [readMembers_readOther, Reading.bind_map]
  rfl

end SegmentFlow.Workflow
