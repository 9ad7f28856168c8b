import SegmentFlow.Canvas.Wire
import SegmentFlow.Proofs.Canvas.Direction
import SegmentFlow.Proofs.Json.ReadBack
/-!
# What the canvas is read back from

Each record writes its members in the order of its fields, so it is read back field by field. The
words of a condition are open, and one that spells a known word in full comes back as that word;
apart from that nothing is lost as long as the coordinates are finite and the config of a node is in
its stored form. A config that is null would come back as none.
-/

namespace SegmentFlow

variable {ε : Type} [Origin ε]

open Shape SegmentFlow.Field

theorem readsBack_float {x : Binary64} (hx : x.isFinite = true) :
    (float : Shape ε Binary64).ReadsBack x.toTree x := by
  rw [Binary64.toTree, if_pos hx]
  rfl

/-! ### Words -/

@[simp] theorem FieldType.ofName?_name (t : FieldType) : ofName? t.name = some t := by
  cases t <;> rfl

@[simp] theorem Connective.ofName?_name (c : Connective) : ofName? c.name = some c := by
  cases c <;> rfl

@[simp] theorem DateType.ofName?_name (d : DateType) : ofName? d.name = some d := by
  cases d <;> rfl

@[simp] theorem PeriodUnit.ofName?_name (u : PeriodUnit) : ofName? u.name = some u := by
  cases u <;> rfl

@[simp] theorem NodeKind.ofName?_name (k : NodeKind) : ofName? k.name = some k := by
  cases k <;> rfl

@[simp] theorem NodeStatus.ofName?_name (s : NodeStatus) : ofName? s.name = some s := by
  cases s <;> rfl

/-! ### Conditions -/

theorem ConditionValue.readsBack (v : ConditionValue) :
    (read : Shape ε ConditionValue).ReadsBack v.toTree v := by
  cases v <;> rfl

namespace WireCondition

/-- The record with its open words read again. -/
def reread (w : WireCondition) : WireCondition :=
  { w with
    operator := .ofName w.operator.name
    collection := (w.collection.map Collection.name).map Collection.ofName }

def Draft.whole (w : WireCondition) : Draft :=
  { w with
    id := some w.id
    field := some w.field
    fieldType := some w.fieldType
    operator := some w.operator }

theorem independent_fields : Independent (fields : List (Field ε Draft)) :=
  ⟨by simp [fields, Field.of], by simp [fields, Field.commute_of]⟩

variable (ε) in
theorem readBack (w : WireCondition) : ∃ ms, w.toTree = .obj ms
    ∧ ReadBack (fields : List (Field ε Draft)) .start ms (.whole w.reread) := by
  have hcollection : optionalMember "collection" (fun c => (.str c.name : Json)) w.collection
      = optionalMember "collection" .str (w.collection.map Collection.name) := by
    cases w.collection <;> rfl
  refine ⟨_, rfl, ?_⟩
  simp only [hcollection, List.cons_append, List.append_assoc]
  refine .present (readsBack_text _) <|
    .optional rfl (fun _ _ => ⟨readsBack_text _, nofun⟩) <|
    .optional rfl (fun _ _ => ⟨readsBack_text _, nofun⟩) <|
    .present (readsBack_text _) <|
    .present (readsBack_oneOf (FieldType.ofName?_name _)) <|
    .present (readsBack_text _) <|
    .present (ConditionValue.readsBack _) <|
    .optional rfl (fun _ _ => ⟨readsBack_list fun _ _ => readsBack_text _, nofun⟩) <|
    .optional rfl (fun _ _ => ⟨readsBack_oneOf (Connective.ofName?_name _), nofun⟩) <|
    .optional rfl (fun _ _ => ⟨readsBack_oneOf (DateType.ofName?_name _), nofun⟩) <|
    .optional rfl (fun _ _ => ⟨readsBack_word _, nofun⟩) <|
    .optional rfl (fun _ _ => ⟨readsBack_oneOf (PeriodUnit.ofName?_name _), nofun⟩) <|
    .optional rfl (fun _ _ => ⟨readsBack_text _, nofun⟩) <|
    .last_optional rfl (fun _ _ => ⟨readsBack_text _, nofun⟩)

end WireCondition

namespace Condition

/-- What a condition is written as stands for the condition itself. -/
def IsReproduced (c : Condition) : Prop :=
  (read (c.toTree : Json).normal).value = .ok c

instance (c : Condition) : Decidable c.IsReproduced :=
  inferInstanceAs (Decidable (_ = _))

variable (ε) in
theorem readsBack_reread [IsEmpty ε] (c : Condition) :
    (read : Shape ε Condition).ReadsBack c.toTree (ofWire c.toWire.reread) := by
  obtain ⟨ms, htree, h⟩ := WireCondition.readBack ε c.toWire
  have hwire : (WireCondition.read : Shape ε WireCondition).ReadsBack c.toTree c.toWire.reread := by
    rw [toTree, htree]
    exact readsBack_record WireCondition.independent_fields h rfl
  rw [ReadsBack, read, Reading.value_bind hwire]
  rfl

theorem isReproduced_iff {c : Condition} : c.IsReproduced ↔ ofWire c.toWire.reread = c := by
  have h := readsBack_reread Empty c
  rw [ReadsBack, Tree.lift_self] at h
  rw [IsReproduced, h, Except.ok.injEq]

theorem IsReproduced.readsBack [IsEmpty ε] {c : Condition} (hc : c.IsReproduced) :
    (read : Shape ε Condition).ReadsBack c.toTree c := by
  have h := readsBack_reread ε c
  rwa [isReproduced_iff.1 hc] at h

end Condition

/-! ### Nodes -/

namespace Position

theorem readsBack [IsEmpty ε] {p : Position} (hp : p.IsFinite) :
    (read : Shape ε Position).ReadsBack p.toTree p :=
  readsBack_record ⟨by simp [fields, Field.of], by simp [fields, Field.commute_of]⟩
    (.present (readsBack_float hp.1) <| .present (readsBack_float hp.2) .nil) rfl

end Position

namespace NodeData

/-- Nothing of the data is lost when it is written. -/
structure IsStorable (d : NodeData) : Prop where
  config : ∀ c ∈ d.config, c.IsStored ∧ c ≠ .null
  conditions : ∀ c ∈ d.conditions, c.IsReproduced

theorem independent_fields : Independent (fields : List (Field ε Draft)) :=
  ⟨by simp [fields, Field.of], by simp [fields, Field.commute_of]⟩

variable (ε) in
theorem readBack [IsEmpty ε] {d : NodeData} (hd : d.IsStorable) : ∃ ms, d.toTree = .obj ms
    ∧ ReadBack (fields : List (Field ε Draft)) .start ms { d with label := some d.label } := by
  have hconfig (c : Json) (hc : c ∈ d.config) :
      (anything : Shape ε Json).ReadsBack c.lift c ∧ (c.lift : Json) ≠ .null := by
    rw [Tree.lift_self]
    exact ⟨readsBack_anything (hd.config c hc).1, (hd.config c hc).2⟩
  have hconditions : ReadBack [(.of "conditions" (Shape.list Condition.read) fun v d =>
        { d with conditions := v } : Field ε Draft)]
      { d with label := some d.label, conditions := [] }
      (if d.conditions.isEmpty then []
        else [("conditions", .arr (d.conditions.map Condition.toTree))])
      { d with label := some d.label } := by
    split
    · next hempty =>
        rw [List.isEmpty_iff.1 hempty]
        exact .absent .nil
    · exact .present (readsBack_list fun c hc => (hd.conditions c hc).readsBack) .nil
  refine ⟨_, rfl, ?_⟩
  simp only [List.cons_append, List.append_assoc]
  exact .present (readsBack_text _) <|
    .optional rfl (fun _ _ => ⟨readsBack_text _, nofun⟩) <|
    .optional rfl (fun _ _ => ⟨readsBack_text _, nofun⟩) <|
    .optional rfl (fun _ _ => ⟨readsBack_oneOf (NodeStatus.ofName?_name _), nofun⟩) <|
    .optional rfl hconfig hconditions

theorem readsBack [IsEmpty ε] {d : NodeData} (hd : d.IsStorable) :
    (read : Shape ε NodeData).ReadsBack d.toTree d := by
  obtain ⟨ms, htree, h⟩ := readBack ε hd
  rw [htree]
  exact readsBack_record independent_fields h rfl

end NodeData

namespace Node

structure IsStorable (n : Node) : Prop where
  position : n.position.IsFinite
  data : n.data.IsStorable

theorem readsBack [IsEmpty ε] {n : Node} (hn : n.IsStorable) :
    (read : Shape ε Node).ReadsBack n.toTree n :=
  readsBack_record ⟨by simp [fields, Field.of], by simp [fields, Field.commute_of]⟩
    (.present (readsBack_text _) <| .present (readsBack_oneOf (NodeKind.ofName?_name _)) <|
      .present (Position.readsBack hn.position) <| .present (NodeData.readsBack hn.data) .nil) rfl

end Node

/-! ### Edges and graphs -/

namespace Edge

theorem independent_fields : Independent (fields : List (Field ε Draft)) :=
  ⟨by simp [fields, Field.of], by simp [fields, Field.commute_of]⟩

variable (ε) in
theorem readBack (e : Edge) : ∃ ms, e.toTree = .obj ms
    ∧ ReadBack (fields : List (Field ε Draft)) .start ms
        { e with id := some e.id, source := some e.source, target := some e.target } := by
  refine ⟨_, rfl, ?_⟩
  simp only [List.cons_append, List.append_assoc]
  exact .present (readsBack_text _) <|
    .present (readsBack_text _) <|
    .present (readsBack_text _) <|
    .optional rfl (fun _ _ => ⟨readsBack_text _, nofun⟩) <|
    .optional rfl (fun _ _ => ⟨readsBack_text _, nofun⟩) <|
    .optional rfl (fun _ _ => ⟨readsBack_text _, nofun⟩) <|
    .present (readsBack_flag _) .nil

theorem readsBack [IsEmpty ε] (e : Edge) : (read : Shape ε Edge).ReadsBack e.toTree e := by
  obtain ⟨ms, htree, h⟩ := readBack ε e
  rw [htree]
  exact readsBack_record independent_fields h rfl

end Edge

namespace Graph

theorem independent_fields : Independent (fields : List (Field ε Graph)) :=
  ⟨by simp [fields, Field.of], by simp [fields, Field.commute_of]⟩

theorem readBack [IsEmpty ε] {g : Graph} (hg : ∀ n ∈ g.nodes, n.IsStorable) :
    ReadBack (fields : List (Field ε Graph)) .empty g.members g :=
  .present (readsBack_list fun n hn => Node.readsBack (hg n hn)) <|
    .present (readsBack_list fun e _ => e.readsBack) .nil

end Graph

end SegmentFlow
