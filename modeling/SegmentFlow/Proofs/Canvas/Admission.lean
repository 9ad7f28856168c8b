import SegmentFlow.Canvas.Connection
import SegmentFlow.Proofs.Keyed
/-!
# When a connection passes

A connection passes exactly if it breaks none of the rules. `Admits` lists what that says about the
two nodes that the connection finds, so that nothing else has to look into the checks.
-/

namespace SegmentFlow

namespace Graph

variable {g : Graph} {id : String} {n : Node}

theorem id_of_node?_eq_some (hnode : g.node? id = some n) : n.id = id := by
  simpa using List.find?_some hnode

theorem mem_of_node?_eq_some (hnode : g.node? id = some n) : n ∈ g.nodes :=
  List.mem_of_find?_eq_some hnode

theorem node?_eq_none_iff : g.node? id = none ↔ id ∉ g.nodes.map Node.id := by
  simp [node?]

/-- Where no id is repeated, an id finds the node that has it. -/
theorem node?_eq_some (hnodup : (g.nodes.map Node.id).Nodup) (hn : n ∈ g.nodes) :
    g.node? n.id = some n :=
  Keyed.get?_of_mem Node.id hnodup hn

theorem mem_outgoing {e : Edge} : e ∈ g.outgoing id ↔ e ∈ g.edges ∧ e.source = id := by
  simp [outgoing]

end Graph

namespace Geometry

structure Admits (m : Geometry) (g : Graph) (c : Connection) (source target : Node) : Prop where
  sourceHandle : fits [outputHandle, yesHandle, noHandle] c.sourceHandle = true
  targetHandle : fits [inputHandle] c.targetHandle = true
  source_found : g.node? c.source = some source
  target_found : g.node? c.target = some target
  start : source.kind = .start →
    (∀ e ∈ g.outgoing source.id, e.target = target.id) ∧ target.kind = .condition
  column : ¬ target.position.x ≤ source.position.x + m.columnBuffer
  row : ∀ n ∈ g.nodes, m.between source target n = false

variable {m : Geometry} {g : Graph} {c : Connection} {source target : Node}

theorem checkStart_eq_ok_iff :
    checkStart g source target = .ok ()
      ↔ (∀ e ∈ g.outgoing source.id, e.target = target.id) ∧ target.kind = .condition := by
  rw [checkStart]
  split
  · rename_i e hfound
    have hne : e.target ≠ target.id := by simpa using List.find?_some hfound
    have hmem := List.mem_of_find?_eq_some hfound
    exact iff_of_false nofun fun h => hne (h.1 e hmem)
  · rename_i hnone
    have hall : ∀ e ∈ g.outgoing source.id, e.target = target.id := by
      simpa using List.find?_eq_none.1 hnone
    split
    · rename_i hkind
      exact iff_of_true rfl ⟨hall, hkind⟩
    · rename_i hkind
      exact iff_of_false nofun fun h => hkind h.2

theorem checkLayout_eq_ok_iff :
    m.checkLayout g source target = .ok ()
      ↔ ¬ target.position.x ≤ source.position.x + m.columnBuffer
        ∧ ∀ n ∈ g.nodes, m.between source target n = false := by
  rw [checkLayout]
  split
  · rename_i hcolumn
    exact iff_of_false nofun fun h => h.1 hcolumn
  · rename_i hcolumn
    split
    · rename_i hnil
      have hrow : ∀ n ∈ g.nodes, m.between source target n = false := by
        simpa using List.filter_eq_nil_iff.1 hnil
      exact iff_of_true rfl ⟨hcolumn, hrow⟩
    · rename_i hskipped
      refine iff_of_false nofun fun h => hskipped ?_
      exact List.filter_eq_nil_iff.2 fun n hn => Bool.eq_false_iff.1 (h.2 n hn)

/-- The rules on two nodes that are there. -/
theorem rules_eq_ok_iff :
    (do if source.kind = .start then checkStart g source target
        m.checkLayout g source target) = (.ok () : Except Rejection Unit)
      ↔ (source.kind = .start →
          (∀ e ∈ g.outgoing source.id, e.target = target.id) ∧ target.kind = .condition)
        ∧ m.checkLayout g source target = .ok () := by
  by_cases hkind : source.kind = .start
  · rw [if_pos hkind]
    cases hstart : checkStart g source target with
    | error r =>
        refine iff_of_false nofun fun h => ?_
        rw [checkStart_eq_ok_iff.2 (h.1 hkind)] at hstart
        exact nomatch hstart
    | ok u =>
        have hrules := checkStart_eq_ok_iff.1 hstart
        exact ⟨fun h => ⟨fun _ => hrules, h⟩, fun h => h.2⟩
  · rw [if_neg hkind]
    exact ⟨fun h => ⟨fun heq => absurd heq hkind, h⟩, fun h => h.2⟩

/-! ### The rules one after another -/

/-- Both handles may be used. -/
def FitsHandles (c : Connection) : Prop :=
  (fits [outputHandle, yesHandle, noHandle] c.sourceHandle
    && fits [inputHandle] c.targetHandle) = true

instance (c : Connection) : Decidable (FitsHandles c) :=
  inferInstanceAs (Decidable (_ = true))

theorem check_of_not_fitsHandles (hfits : ¬ FitsHandles c) :
    m.check g c
      = .error (.invalidHandle (c.sourceHandle.getD "") (c.targetHandle.getD "")) :=
  if_neg hfits

theorem check_of_source_eq_none (hfits : FitsHandles c) (hsource : g.node? c.source = none) :
    m.check g c = .error (.unknownNode c.source) := by
  rw [check]
  refine (if_pos hfits).trans ?_
  rw [hsource]
  rfl

theorem check_of_target_eq_none (hfits : FitsHandles c) (hsource : g.node? c.source = some source)
    (htarget : g.node? c.target = none) : m.check g c = .error (.unknownNode c.target) := by
  rw [check]
  refine (if_pos hfits).trans ?_
  rw [hsource, htarget]
  rfl

theorem check_of_found (hfits : FitsHandles c) (hsource : g.node? c.source = some source)
    (htarget : g.node? c.target = some target) :
    m.check g c = (do
      if source.kind = .start then checkStart g source target
      m.checkLayout g source target) := by
  rw [check]
  refine (if_pos hfits).trans ?_
  rw [hsource, htarget]

/-- A check stops at the handles or at a node that is not there, or else it comes to the rules on the
two nodes that it finds. -/
theorem check_cases (m : Geometry) (g : Graph) (c : Connection) :
    (¬ FitsHandles c
        ∧ m.check g c = .error (.invalidHandle (c.sourceHandle.getD "") (c.targetHandle.getD "")))
      ∨ (∃ id, g.node? id = none ∧ m.check g c = .error (.unknownNode id))
      ∨ ∃ source target, FitsHandles c ∧ g.node? c.source = some source
          ∧ g.node? c.target = some target := by
  by_cases hfits : FitsHandles c
  · cases hsource : g.node? c.source with
    | none => exact .inr (.inl ⟨c.source, hsource, check_of_source_eq_none hfits hsource⟩)
    | some source =>
        cases htarget : g.node? c.target with
        | none => exact .inr (.inl ⟨c.target, htarget, check_of_target_eq_none hfits hsource htarget⟩)
        | some target => exact .inr (.inr ⟨source, target, hfits, rfl, rfl⟩)
  · exact .inl ⟨hfits, check_of_not_fitsHandles hfits⟩

theorem Admits.fitsHandles (h : m.Admits g c source target) : FitsHandles c :=
  Bool.and_eq_true_iff.2 ⟨h.sourceHandle, h.targetHandle⟩

theorem check_eq_ok_iff :
    m.check g c = .ok () ↔ ∃ source target, m.Admits g c source target := by
  constructor
  · intro hpass
    obtain ⟨-, hcheck⟩ | ⟨id, -, hcheck⟩ | ⟨source, target, hfits, hsource, htarget⟩ :=
      check_cases m g c
    · exact nomatch hcheck.symm.trans hpass
    · exact nomatch hcheck.symm.trans hpass
    · rw [check_of_found hfits hsource htarget, rules_eq_ok_iff, checkLayout_eq_ok_iff] at hpass
      obtain ⟨hstart, hcolumn, hrow⟩ := hpass
      rw [FitsHandles, Bool.and_eq_true] at hfits
      exact ⟨source, target, hfits.1, hfits.2, hsource, htarget, hstart, hcolumn, hrow⟩
  · rintro ⟨source, target, h⟩
    rw [check_of_found h.fitsHandles h.source_found h.target_found, rules_eq_ok_iff,
      checkLayout_eq_ok_iff]
    exact ⟨h.start, h.column, h.row⟩

end Geometry

end SegmentFlow
