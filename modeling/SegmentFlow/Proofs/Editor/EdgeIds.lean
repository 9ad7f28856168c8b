import Mathlib.Data.List.Nodup
import Mathlib.Data.List.Perm.Subperm
import Mathlib.Order.Bounds.Defs
import SegmentFlow.Editor
import SegmentFlow.Proofs.Numeral
/-!
# The id of a new edge

The search for an id tries the base and then the base with the numbers one, two, and so on, but it
stops after as many numbers as there are edges. That is enough: the ids tried are pairwise different,
and one more of them than there are edges cannot all be taken.
-/

namespace SegmentFlow.Graph

variable (g : Graph)

/-- The id that is tried with a number. -/
def numberedId (base : String) (n : Nat) : String :=
  base ++ "-" ++ toString n

theorem numberedId_injective (base : String) : Function.Injective (numberedId base) := by
  intro m n heq
  exact toString_inj.1 ((String.append_right_inj _).1 heq)

theorem base_ne_numberedId (base : String) (n : Nat) : base ≠ numberedId base n := by
  intro heq
  have hlength := congrArg String.length heq
  rw [numberedId, String.length_append, String.length_append] at hlength
  have hdash : "-".length = 1 := rfl
  omega

theorem hasEdge_iff {id : String} : g.hasEdge id = true ↔ id ∈ g.edges.map Edge.id := by
  rw [hasEdge, edge?, List.find?_isSome, List.mem_map]
  simp only [decide_eq_true_eq]

/-- The search ends at the first number that is free, or else after the last that it may try. -/
theorem numberedEdgeId_spec (base : String) (tries n : Nat) :
    ∃ k ≤ tries, g.numberedEdgeId base tries n = numberedId base (n + k)
      ∧ (∀ j < k, g.hasEdge (numberedId base (n + j)) = true)
      ∧ (k < tries → g.hasEdge (numberedId base (n + k)) = false) := by
  induction tries generalizing n with
  | zero => exact ⟨0, Nat.le_refl 0, rfl, fun j hj => absurd hj (Nat.not_lt_zero j),
      fun hlt => absurd hlt (Nat.lt_irrefl 0)⟩
  | succ tries ih =>
      by_cases htaken : g.hasEdge (numberedId base n) = true
      · obtain ⟨k, hk, hid, hbefore, hfree⟩ := ih (n + 1)
        have hshift (j : Nat) : n + 1 + j = n + (j + 1) := by omega
        refine ⟨k + 1, by omega, ?_, ?_, ?_⟩
        · rw [← hshift, ← hid]
          exact if_pos htaken
        · intro j hj
          cases j with
          | zero => exact htaken
          | succ j =>
              rw [← hshift]
              exact hbefore j (by omega)
        · intro hlt
          rw [← hshift]
          exact hfree (by omega)
      · refine ⟨0, Nat.zero_le _, if_neg htaken, fun j hj => absurd hj (Nat.not_lt_zero j), ?_⟩
        intro _
        exact Bool.eq_false_iff.2 htaken

/-- There are not enough edges to take the base and as many numbers as there are edges. -/
theorem exists_free_number {base : String} (hbase : g.hasEdge base = true) :
    ∃ j < g.edges.length, g.hasEdge (numberedId base (1 + j)) = false := by
  by_contra hnone
  push Not at hnone
  let tried := base :: (List.range g.edges.length).map fun j => numberedId base (1 + j)
  have hnodup : tried.Nodup := by
    refine List.nodup_cons.2 ⟨?_, ?_⟩
    · intro hmem
      obtain ⟨j, _, heq⟩ := List.mem_map.1 hmem
      exact base_ne_numberedId base (1 + j) heq.symm
    · refine List.Nodup.map (fun i j heq => ?_) List.nodup_range
      exact Nat.add_left_cancel (numberedId_injective base heq)
  have hsubset : tried ⊆ g.edges.map Edge.id := by
    intro id hid
    rcases List.mem_cons.1 hid with rfl | hid
    · exact g.hasEdge_iff.1 hbase
    · obtain ⟨j, hj, rfl⟩ := List.mem_map.1 hid
      have htaken := hnone j (List.mem_range.1 hj)
      exact g.hasEdge_iff.1 (Bool.not_eq_false _ ▸ htaken)
  have hlength := (List.subperm_of_subset hnodup hsubset).length_le
  simp only [tried, List.length_cons, List.length_map, List.length_range] at hlength
  omega

/-- The numbers from one on that give a free id. -/
def freeNumbers (base : String) : Set Nat :=
  { n | 1 ≤ n ∧ g.hasEdge (numberedId base n) = false }

/-- The search ends at the least free number, which is not beyond the number of edges. -/
theorem exists_isLeast_freeNumbers {base : String} (hbase : g.hasEdge base = true) :
    ∃ n ≤ g.edges.length, IsLeast (g.freeNumbers base) n
      ∧ g.numberedEdgeId base g.edges.length 1 = numberedId base n := by
  obtain ⟨k, hk, hid, hbefore, hfree⟩ := g.numberedEdgeId_spec base g.edges.length 1
  obtain ⟨j, hj, hnumber⟩ := g.exists_free_number hbase
  have hle : k ≤ j := by
    by_contra hlt
    rw [hbefore j (by omega)] at hnumber
    exact absurd hnumber (by decide)
  refine ⟨1 + k, by omega, ⟨⟨by omega, hfree (by omega)⟩, fun m hm => ?_⟩, hid⟩
  obtain ⟨hpos, hm⟩ := hm
  by_contra hlt
  have htaken := hbefore (m - 1) (by omega)
  rw [show 1 + (m - 1) = m by omega, hm] at htaken
  exact absurd htaken (by decide)

/-- No edge has the id of a new edge. -/
theorem hasEdge_newEdgeId (source target : String) (handle : Option String) :
    g.hasEdge (g.newEdgeId source target handle) = false := by
  simp only [newEdgeId]
  split
  · rename_i hbase
    obtain ⟨n, -, hleast, hid⟩ := g.exists_isLeast_freeNumbers hbase
    rw [hid]
    exact hleast.1.2
  · rename_i hbase
    exact Bool.eq_false_iff.2 hbase

end SegmentFlow.Graph
