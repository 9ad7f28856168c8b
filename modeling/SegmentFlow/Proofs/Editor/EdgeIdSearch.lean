import Mathlib.Algebra.Group.Nat.Defs
import Mathlib.Data.Nat.Init
import Mathlib.Logic.Function.Iterate
import SegmentFlow.Proofs.Editor.EdgeIds
/-!
# The search for an edge id, step by step

The id of a new edge is computed under a bound on the numbers that are tried. Here the search has no
bound: it goes on from one number to the next for as long as their ids are taken, and its counter has
32 bits, so that it can run out of numbers. On a graph with fewer edges than the counter has numbers it
does not: the run meets a free id after as many numbers as there are edges at most, and then stays at
that id, which is the one computed.
-/

namespace SegmentFlow.Graph

/-- Where the search stands. -/
inductive Search where
  /-- Before the base. -/
  | atBase
  /-- Before the number that the counter shows. -/
  | atNumber (counter : Int32)
  | found (id : String)
  /-- The last number was taken and the counter cannot go on. -/
  | overflowed
  deriving DecidableEq

namespace Search

variable (g : Graph) (base : String)

/-- Tries the id before which the search stands. -/
def next : Search → Search
  | atBase => if g.hasEdge base then atNumber 1 else found base
  | atNumber counter =>
    let id := base ++ "-" ++ toString counter
    if g.hasEdge id then
      if counter = Int32.maxValue then overflowed else atNumber (counter + 1)
    else found id
  | found id => found id
  | overflowed => overflowed

/-- Where the search stands after so many steps. -/
def after (steps : Nat) : Search :=
  (next g base)^[steps] atBase

variable {g base} {n k : Nat} {id : String}

theorem after_succ : after g base (n + 1) = next g base (after g base n) :=
  Function.iterate_succ_apply' _ _ _

/-! ### One step -/

/-- As long as it fits, the counter is written as the number that it shows. -/
theorem toString_counter (hn : n < 2 ^ 31) : toString (Int32.ofNat n) = toString n := by
  change toString (Int32.ofNat n).toInt = toString n
  rw [Int32.toInt_ofNat_of_lt hn]
  rfl

theorem next_atNumber_of_free (hn : n < 2 ^ 31) (hfree : g.hasEdge (numberedId base n) = false) :
    next g base (atNumber (.ofNat n)) = found (numberedId base n) := by
  rw [numberedId] at hfree ⊢
  simp only [next, toString_counter hn, hfree, Bool.false_eq_true, if_false]

theorem next_atNumber_of_taken (hn : n + 1 < 2 ^ 31)
    (htaken : g.hasEdge (numberedId base n) = true) :
    next g base (atNumber (.ofNat n)) = atNumber (.ofNat (n + 1)) := by
  -- the next number still fits, so this one is not the last
  have hcounter : Int32.ofNat n ≠ Int32.maxValue := by
    intro hmax
    have hvalue := congrArg Int32.toInt hmax
    rw [Int32.toInt_ofNat_of_lt (by omega), Int32.toInt_maxValue] at hvalue
    omega
  rw [numberedId] at htaken
  simp only [next, toString_counter (show n < 2 ^ 31 by omega), htaken, if_true, if_neg hcounter]
  rw [Int32.ofNat_add]
  rfl

/-! ### A run -/

/-- The search stands before a number once the base and all numbers before it were taken. -/
theorem after_of_taken (hbase : g.hasEdge base = true) (hpos : 1 ≤ n) (hn : n < 2 ^ 31)
    (htaken : ∀ m, 1 ≤ m → m < n → g.hasEdge (numberedId base m) = true) :
    after g base n = atNumber (.ofNat n) := by
  induction n, hpos using Nat.le_induction with
  | base => exact if_pos hbase
  | succ n hpos ih =>
      have hn' : after g base n = atNumber (.ofNat n) :=
        ih (by omega) fun m hm hlt => htaken m hm (by omega)
      rw [after_succ, hn', next_atNumber_of_taken hn (htaken n hpos (by omega))]

/-- What is found stays found. -/
theorem after_of_found (hfound : after g base n = found id) (hk : n ≤ k) :
    after g base k = found id := by
  induction k, hk using Nat.le_induction with
  | base => exact hfound
  | succ k _ ih =>
      rw [after_succ, ih]
      rfl

/-- The search finds an id after trying so many numbers, and its counter shows each of them in turn. -/
structure Finds (g : Graph) (base id : String) (tried : Nat) : Prop where
  counts : ∀ n, 1 ≤ n → n ≤ tried → ∃ counter : Int32, counter.toInt = n
    ∧ after g base n = atNumber counter
  ends : ∀ n, tried < n → after g base n = found id

theorem finds_base (hbase : g.hasEdge base = false) : Finds g base base 0 where
  counts n hpos hle := absurd hpos (by omega)
  ends n hpos := by
    have hfirst : after g base 1 = found base := if_neg (by simp [hbase])
    exact after_of_found hfirst hpos

theorem finds_number (hbase : g.hasEdge base = true) (hn : n < 2 ^ 31)
    (hleast : IsLeast (g.freeNumbers base) n) : Finds g base (numberedId base n) n := by
  obtain ⟨⟨hpos, hfree⟩, hlower⟩ := hleast
  -- a free number before `n` would be a lower one than the least
  have htaken : ∀ m, 1 ≤ m → m < n → g.hasEdge (numberedId base m) = true := by
    intro m hm hlt
    by_contra hnot
    have hle : n ≤ m := hlower ⟨hm, Bool.eq_false_iff.2 hnot⟩
    omega
  have hrun : ∀ m, 1 ≤ m → m ≤ n → after g base m = atNumber (.ofNat m) := by
    intro m hm hle
    exact after_of_taken hbase hm (by omega) fun l hl hlt => htaken l hl (by omega)
  refine ⟨fun m hm hle => ⟨.ofNat m, Int32.toInt_ofNat_of_lt (by omega), hrun m hm hle⟩, ?_⟩
  intro m hlt
  refine after_of_found (n := n + 1) ?_ hlt
  rw [after_succ, hrun n hpos (Nat.le_refl n), next_atNumber_of_free hn hfree]

theorem Finds.ne_overflowed {tried : Nat} (hfinds : Finds g base id tried) (n : Nat) :
    after g base n ≠ overflowed := by
  cases n with
  | zero => exact nofun
  | succ n =>
      by_cases hle : n + 1 ≤ tried
      · obtain ⟨counter, -, hcounter⟩ := hfinds.counts (n + 1) (by omega) hle
        rw [hcounter]
        exact nofun
      · rw [hfinds.ends (n + 1) (by omega)]
        exact nofun

end Search

/-- The search for the id of a new edge ends at it after trying as many numbers as there are edges at
most, and its counter does not overflow. No edge has the id; it is the base if that is free, and else
the base with the least number that is free. -/
theorem search_finds_newEdgeId (g : Graph) (source target : String) (handle : Option String)
    (hedges : g.edges.length < 2 ^ 31) :
    (∀ e ∈ g.edges, e.id ≠ g.newEdgeId source target handle)
      ∧ (∃ tried ≤ g.edges.length,
          Search.Finds g (baseEdgeId source target handle) (g.newEdgeId source target handle) tried)
      ∧ (∀ n, Search.after g (baseEdgeId source target handle) n ≠ .overflowed)
      ∧ (g.hasEdge (baseEdgeId source target handle) = false →
          g.newEdgeId source target handle = baseEdgeId source target handle)
      ∧ (g.hasEdge (baseEdgeId source target handle) = true →
          ∃ n, IsLeast (g.freeNumbers (baseEdgeId source target handle)) n
            ∧ g.newEdgeId source target handle
              = numberedId (baseEdgeId source target handle) n) := by
  have hfree := g.hasEdge_newEdgeId source target handle
  refine ⟨fun e he heq => ?_, ?_⟩
  · rw [← heq, g.hasEdge_iff.2 (List.mem_map_of_mem he)] at hfree
    exact absurd hfree (by decide)
  · cases hbase : g.hasEdge (baseEdgeId source target handle) with
    | false =>
        have hid : g.newEdgeId source target handle = baseEdgeId source target handle :=
          if_neg (by simp [hbase])
        have hfinds := Search.finds_base hbase
        rw [hid]
        exact ⟨⟨0, Nat.zero_le _, hfinds⟩, hfinds.ne_overflowed, fun _ => rfl, nofun⟩
    | true =>
        obtain ⟨n, hn, hleast, hnumber⟩ := g.exists_isLeast_freeNumbers hbase
        have hid : g.newEdgeId source target handle
            = numberedId (baseEdgeId source target handle) n :=
          (if_pos hbase).trans hnumber
        have hfinds := Search.finds_number hbase (by omega) hleast
        rw [hid]
        exact ⟨⟨n, hn, hfinds⟩, hfinds.ne_overflowed, nofun, fun _ => ⟨n, hleast, rfl⟩⟩

/-- The base and the first two numbers are taken, in no order, and not all by edges from `a` to `b`. -/
def crowded : Graph where
  nodes := []
  edges :=
    [⟨"pa-b-2", "c", "d", none, none, none, true⟩, ⟨"pa-b", "a", "b", none, none, none, true⟩,
      ⟨"pa-b-1", "a", "b", none, none, none, false⟩]

theorem search_finds_newEdgeId_crowded :
    crowded.edges.length < 2 ^ 31
      ∧ (∃ tried ≤ 3, Search.Finds crowded "pa-b" "pa-b-3" tried)
      ∧ (∀ n, Search.after crowded "pa-b" n ≠ .overflowed)
      ∧ IsLeast (crowded.freeNumbers "pa-b") 3
      ∧ Search.after crowded "pa-b" 4 = .found "pa-b-3" := by
  have hedges : crowded.edges.length < 2 ^ 31 := by decide
  have hid : crowded.newEdgeId "a" "b" none = "pa-b-3" := by decide +kernel
  obtain ⟨-, hfinds, hfits, -, hnumber⟩ := search_finds_newEdgeId crowded "a" "b" none hedges
  obtain ⟨n, hleast, hn⟩ := hnumber (by decide +kernel)
  have hthree : n = 3 := numberedId_injective (baseEdgeId "a" "b" none) (hn.symm.trans hid)
  rw [hid] at hfinds
  exact ⟨hedges, hfinds, hfits, hthree ▸ hleast, by decide +kernel⟩

end SegmentFlow.Graph
