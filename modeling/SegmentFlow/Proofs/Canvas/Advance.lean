import SegmentFlow.Proofs.Binary64.Exact
import SegmentFlow.Proofs.Canvas.Direction
/-!
# How far edges lead

Each edge that is drawn leads past the column of its source, so by more than the column buffer. A path
adds that up, exactly, though every single check is made on a rounded sum. With a buffer that is not
negative no path can therefore come back to where it starts.
-/

namespace SegmentFlow

/-- The node lies more than a distance to the right of another one. -/
def Node.IsBeyond (n : Node) (distance : EReal) (k : Node) : Prop :=
  ∃ p ∈ k.position.x.value?, ∃ q ∈ n.position.x.value?, p + distance < q

theorem Node.IsBeyond.trans {a b c : Node} {d₁ d₂ : EReal} (hab : b.IsBeyond d₁ a)
    (hbc : c.IsBeyond d₂ b) : c.IsBeyond (d₁ + d₂) a := by
  obtain ⟨p, hp, q, hq, hpq⟩ := hab
  obtain ⟨q', hq', r, hr, hqr⟩ := hbc
  obtain rfl := Option.mem_unique hq hq'
  refine ⟨p, hp, r, hr, ?_⟩
  calc
    p + (d₁ + d₂) = p + d₁ + d₂ := (add_assoc p d₁ d₂).symm
    _ ≤ q + d₂ := add_le_add_left hpq.le d₂
    _ < r := hqr

theorem Node.not_isBeyond_self {n : Node} {distance : EReal} (hdistance : 0 ≤ distance) :
    ¬ n.IsBeyond distance n := by
  rintro ⟨p, hp, q, hq, hlt⟩
  obtain rfl := Option.mem_unique hp hq
  exact absurd hlt (not_lt_of_ge (le_add_of_nonneg_right hdistance))

namespace Graph

/-- The edges of the graph were drawn one after another, each for a connection that passed on the
graph with the edges before it. -/
inductive Drawn (m : Geometry) : Graph → Prop
  | none (nodes : List Node) : Drawn m ⟨nodes, []⟩
  | edge {g : Graph} {c : Connection} {e : Edge} (hdrawn : Drawn m g)
      (hpass : m.check g c = .ok ()) (hsource : e.source = c.source)
      (htarget : e.target = c.target) : Drawn m { g with edges := g.edges ++ [e] }

/-- A path of a number of edges, at least one, from one id to another. -/
inductive Path (g : Graph) : Nat → String → String → Prop
  | single {a b : String} (hleads : g.Leads a b) : Path g 1 a b
  | cons {n : Nat} {a b c : String} (hleads : g.Leads a b) (hpath : Path g n b c) :
      Path g (n + 1) a c

instance (g : Graph) (a c : String) : Decidable (g.Leads a c) :=
  inferInstanceAs (Decidable (∃ e ∈ g.edges, e.source = a ∧ e.target = c))

variable {m : Geometry} {g : Graph} {b : EReal}

theorem exists_path {a c : String} (hpath : Relation.TransGen g.Leads a c) :
    ∃ n, g.Path n a c := by
  induction hpath using Relation.TransGen.head_induction_on with
  | single hleads => exact ⟨1, .single hleads⟩
  | head hleads _ ih =>
      obtain ⟨n, hpath⟩ := ih
      exact ⟨n + 1, .cons hleads hpath⟩

/-- The nodes that two ids find lie more than a distance apart. -/
def Spans (g : Graph) (distance : EReal) (a c : String) : Prop :=
  ∃ source ∈ g.node? a, ∃ target ∈ g.node? c, target.IsBeyond distance source

theorem Spans.trans {a c d : String} {d₁ d₂ : EReal} (hac : g.Spans d₁ a c)
    (hcd : g.Spans d₂ c d) : g.Spans (d₁ + d₂) a d := by
  obtain ⟨source, hsource, middle, hmiddle, hfirst⟩ := hac
  obtain ⟨middle', hmiddle', target, htarget, hrest⟩ := hcd
  obtain rfl := Option.mem_unique hmiddle hmiddle'
  exact ⟨source, hsource, target, htarget, hfirst.trans hrest⟩

theorem Drawn.spans_of_leads (hdrawn : g.Drawn m) (hfinite : g.IsFinite)
    (hbuffer : m.columnBuffer.value? = some b) {a c : String} (hleads : g.Leads a c) :
    g.Spans b a c := by
  induction hdrawn with
  | none nodes =>
      obtain ⟨e, he, -⟩ := hleads
      exact absurd he List.not_mem_nil
  | edge hdrawn hpass hsource htarget ih =>
      obtain ⟨e, he, rfl, rfl⟩ := hleads
      rcases List.mem_append.1 he with he | he
      · exact ih hfinite ⟨e, he, rfl, rfl⟩
      · obtain rfl := List.mem_singleton.1 he
        obtain ⟨source, target, hadmits⟩ := Geometry.check_eq_ok_iff.1 hpass
        have hx := (hfinite source (mem_of_node?_eq_some hadmits.source_found)).1
        have hz := (hfinite target (mem_of_node?_eq_some hadmits.target_found)).1
        rw [hsource, htarget]
        exact ⟨source, hadmits.source_found, target, hadmits.target_found,
          Binary64.add_lt_of_not_le_add hx hz hadmits.column hbuffer⟩

theorem Drawn.spans_of_path (hdrawn : g.Drawn m) (hfinite : g.IsFinite)
    (hbuffer : m.columnBuffer.value? = some b) {n : Nat} {a c : String} (hpath : g.Path n a c) :
    g.Spans (n * b) a c := by
  induction hpath with
  | single hleads =>
      rw [Nat.cast_one, one_mul]
      exact hdrawn.spans_of_leads hfinite hbuffer hleads
  | @cons n a c d hleads hpath ih =>
      have hstep := hdrawn.spans_of_leads hfinite hbuffer hleads
      have hsum : ((n + 1 : Nat) : EReal) * b = b + n * b := by
        rw [Nat.cast_add, Nat.cast_one, EReal.right_distrib_of_nonneg (Nat.cast_nonneg' n) zero_le_one,
          one_mul, add_comm]
      rw [hsum]
      exact hstep.trans ih

/-- A path of `n` drawn edges leads more than `n` column buffers to the right, and unless the buffer is
negative no drawn edge ever closes a cycle. A buffer that is not a number has no value: it lets edges
lead anywhere. -/
theorem advance_of_drawn (hdrawn : g.Drawn m) (hfinite : g.IsFinite)
    (hbuffer : m.columnBuffer.value? = some b) :
    (∀ n a c, g.Path n a c →
        ∃ u ∈ g.node? a, ∃ v ∈ g.node? c, v.IsBeyond (n * b) u)
      ∧ (0 ≤ b → g.Acyclic) := by
  refine ⟨fun n a c hpath => hdrawn.spans_of_path hfinite hbuffer hpath, ?_⟩
  intro hnonneg id hcycle
  obtain ⟨n, hpath⟩ := exists_path hcycle
  obtain ⟨u, hu, v, hv, hbeyond⟩ := hdrawn.spans_of_path hfinite hbuffer hpath
  obtain rfl := Option.mem_unique hu hv
  exact Node.not_isBeyond_self (mul_nonneg (Nat.cast_nonneg' n) hnonneg) hbeyond

/-- The last two nodes lie a quarter more than a column apart. -/
def row : List Node :=
  [.fresh "third" .action ⟨.ofNat 105 + .ofNat 1 / .ofNat 4, .ofNat 0⟩,
    .fresh "first" .start ⟨.ofInt (-20), .ofNat 0⟩,
    .fresh "second" .condition ⟨.ofNat 55, .ofNat 0⟩]

def drawnRow : Graph where
  nodes := row
  edges :=
    [⟨"1", "first", "second", none, none, none, true⟩,
      ⟨"2", "second", "third", some yesHandle, none, some "Yes", true⟩]

theorem drawn_drawnRow : drawnRow.Drawn .standard :=
  .edge (c := ⟨"second", "third", some yesHandle, none⟩)
    (.edge (c := ⟨"first", "second", none, none⟩) (.none row) (by decide +kernel) rfl rfl)
    (by decide +kernel) rfl rfl

theorem advance_drawnRow :
    drawnRow.IsFinite ∧ drawnRow.Drawn .standard ∧ drawnRow.Path 2 "first" "third"
      ∧ (∃ u ∈ drawnRow.node? "first", ∃ v ∈ drawnRow.node? "third", v.IsBeyond (2 * 50) u)
      ∧ drawnRow.Acyclic := by
  have hfinite : drawnRow.IsFinite := by decide +kernel
  have hfirst : drawnRow.Leads "first" "second" := by decide
  have hsecond : drawnRow.Leads "second" "third" := by decide
  have hpath : drawnRow.Path 2 "first" "third" := .cons hfirst (.single hsecond)
  have hbuffer : Geometry.standard.columnBuffer.value? = some ((50 : Nat) : EReal) := by
    dsimp only [Geometry.standard]
    exact Binary64.value?_ofNat (by decide +kernel)
  obtain ⟨hspans, hacyclic⟩ := advance_of_drawn drawn_drawnRow hfinite hbuffer
  exact ⟨hfinite, drawn_drawnRow, hpath, hspans 2 "first" "third" hpath,
    hacyclic (Nat.cast_nonneg' 50)⟩

end Graph

end SegmentFlow
