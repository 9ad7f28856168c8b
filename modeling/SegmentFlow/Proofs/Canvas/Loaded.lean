import SegmentFlow.Proofs.Canvas.ReadBack
import SegmentFlow.Proofs.Json.Invariants
/-!
# What is read of the canvas can be stored

Whatever the document looked like, a node that was read from it is one of those that are read back:
its coordinates are finite, its config came in its stored form, and its conditions are reproduced.
The last is a matter of what a condition keeps of its record: it drops what does not apply, and
writes what it kept in the one way in which it is read again.
-/

namespace SegmentFlow

variable {ε : Type} [Origin ε]

open Shape SegmentFlow.Field

/-! ### Words and bounds -/

theorem Operator.name_ofName (s : String) : (ofName s).name = s := by
  rw [ofName]
  cases hknown : known.find? fun o => o.name = s with
  | none => rfl
  | some o => simpa using List.find?_some hknown

theorem Collection.name_ofName (s : String) : (ofName s).name = s := by
  rw [ofName]
  cases hknown : known.find? fun c => c.name = s with
  | none => rfl
  | some c => simpa using List.find?_some hknown

namespace WireCondition

theorem bounds?_eq_some_iff {w : WireCondition} {b : Bounds} : w.bounds? = some b
    ↔ w.dateFrom = some b.first ∧ w.dateTo = some b.last ∧ b.first ≠ "" ∧ b.last ≠ "" := by
  obtain ⟨first, last⟩ := b
  rw [bounds?]
  cases w.dateFrom <;> cases w.dateTo <;> grind

/-- A date rule that has bounds took them from the record. -/
theorem bounds?_eq_of_dateRule {w : WireCondition} {b : Bounds} (h : w.dateRule = .range b) :
    w.bounds? = some b := by
  rw [dateRule] at h
  grind

theorem bounds?_eq_of_kind {w : WireCondition} {b : Bounds}
    (h : w.kind.dateRule?.bind DateRule.bounds? = some b) : w.bounds? = some b := by
  rw [kind] at h
  cases htype : w.fieldType with
  | date =>
      cases hrule : w.dateRule with
      | range b' =>
          rw [htype, hrule] at h
          exact (bounds?_eq_of_dateRule hrule).trans h
      | _ => rw [htype, hrule] at h; nomatch h
  | _ => rw [htype] at h; nomatch h

end WireCondition

/-! ### A condition and the record that it writes -/

namespace Condition

open WireCondition

section Normalized

variable (w : WireCondition)

/-- The bounds are written back, be they those of a range or not. -/
theorem bounds?_toWire_ofWire : (ofWire w).toWire.bounds? = w.bounds? := by
  have hbounds :
      (ofWire w).betweenBounds.or (w.kind.dateRule?.bind DateRule.bounds?) = w.bounds? := by
    rw [ofWire]
    cases hrange : w.kind.dateRule?.bind DateRule.bounds? with
    | none => rw [Option.isSome_none, if_neg Bool.false_ne_true, Option.or_none]
    | some b => rw [Option.isSome_some, if_pos rfl, Option.none_or, bounds?_eq_of_kind hrange]
  have hfrom : (ofWire w).toWire.dateFrom = w.bounds?.map Bounds.first :=
    congrArg (Option.map Bounds.first) hbounds
  have hto : (ofWire w).toWire.dateTo = w.bounds?.map Bounds.last :=
    congrArg (Option.map Bounds.last) hbounds
  cases hw : w.bounds? with
  | none => rw [bounds?, hfrom, hw, Option.map_none]
  | some b =>
      obtain ⟨-, -, hfirst, hlast⟩ := bounds?_eq_some_iff.1 hw
      rw [hw] at hfrom hto
      exact bounds?_eq_some_iff.2 ⟨hfrom, hto, hfirst, hlast⟩

theorem dateRule_toWire_ofWire (htype : w.fieldType = .date) :
    (ofWire w).toWire.dateRule = w.dateRule := by
  have hkind : (ofWire w).kind = .date w.dateRule := by
    change w.kind = _
    rw [WireCondition.kind, htype]
  have hbounds := bounds?_toWire_ofWire w
  rw [dateRule, hbounds, toWire, hkind]
  cases hrule : w.dateRule with
  | range b => simp [FieldKind.dateRule?, DateRule.type, bounds?_eq_of_dateRule hrule]
  | _ => rfl

theorem kind_toWire_ofWire : (ofWire w).toWire.kind = w.kind := by
  cases htype : w.fieldType with
  | date =>
      have hwire : (ofWire w).toWire.fieldType = .date := by
        change w.kind.type = _
        rw [WireCondition.kind, htype, FieldKind.type]
      rw [WireCondition.kind, hwire, dateRule_toWire_ofWire w htype, WireCondition.kind, htype]
  | _ =>
      have hkind : (ofWire w).kind = w.kind := rfl
      rw [WireCondition.kind, toWire, hkind, WireCondition.kind, htype]
      rfl

/-- What a record stands for is written as a record that stands for the same. -/
theorem ofWire_toWire_ofWire : ofWire (ofWire w).toWire = ofWire w := by
  have hcollection : (ofWire w).toWire.collection.filter (fun c => c.name ≠ "")
      = w.collection.filter fun c => c.name ≠ "" := by
    change (w.collection.filter _).filter _ = _
    rw [Option.filter_filter]
    simp
  rw [ofWire, kind_toWire_ofWire, bounds?_toWire_ofWire, hcollection]
  rfl

end Normalized

end Condition

/-! ### Conditions that were read -/

namespace WireCondition

/-- The open words of the record are the ones that their spellings are read as. -/
structure IsReread (w : WireCondition) : Prop where
  operator : Operator.ofName w.operator.name = w.operator
  collection : ∀ c ∈ w.collection, Collection.ofName c.name = c

theorem IsReread.reread_eq {w : WireCondition} (hw : w.IsReread) : w.reread = w := by
  have hcollection : (w.collection.map Collection.name).map Collection.ofName = w.collection := by
    cases hc : w.collection with
    | none => rfl
    | some c => exact congrArg some (hw.collection c hc)
  rw [reread, hw.operator, hcollection]

def Draft.IsReread (d : Draft) : Prop :=
  (∀ o ∈ d.operator, Operator.ofName o.name = o)
    ∧ ∀ c ∈ d.collection, Collection.ofName c.name = c

theorem yields_isReread [IsEmpty ε] :
    (read : Shape ε WireCondition).Yields Tree.FiniteNumbers IsReread := by
  refine yields_record (I := Draft.IsReread) ?_ ⟨nofun, nofun⟩ fun d w hd hfinish => ?_
  · have hcollection (v : Option String) (d : Draft) (hd : d.IsReread) :
        Draft.IsReread { d with collection := v.map Collection.ofName } := by
      refine ⟨hd.1, fun c hc => ?_⟩
      obtain ⟨s, -, rfl⟩ := Option.map_eq_some_iff.1 hc
      rw [Collection.name_ofName]
    have hoperator (s : String) (d : Draft) (hd : d.IsReread) :
        Draft.IsReread { d with operator := some (.ofName s) } :=
      ⟨by simp [Operator.name_ofName], hd.2⟩
    simp only [fields, List.forall_mem_cons]
    refine ⟨?_, ?_, keeps_of_put hcollection, ?_, ?_, keeps_of_put hoperator, ?_, ?_, ?_, ?_, ?_, ?_,
      ?_, ?_, by simp⟩ <;>
    exact keeps_of_put fun _ _ hd => hd
  · simp only [Draft.finish, Option.bind_eq_bind, Option.bind_eq_some_iff] at hfinish
    obtain ⟨id, -, field, -, fieldType, -, operator, hoperator, hw⟩ := hfinish
    obtain rfl := Option.some.inj hw
    exact ⟨hd.1 operator hoperator, hd.2⟩

end WireCondition

/-- What a record stands for is reproduced if the record has its words from their spellings. -/
theorem Condition.isReproduced_ofWire {w : WireCondition} (hw : w.IsReread) :
    (ofWire w).IsReproduced := by
  have hwire : (ofWire w).toWire.IsReread :=
    ⟨hw.operator, fun c hc => hw.collection c (Option.mem_filter_iff.1 hc).1⟩
  rw [isReproduced_iff, hwire.reread_eq, ofWire_toWire_ofWire]

/-- A condition that was read is reproduced by what it is written as. -/
theorem Condition.yields_isReproduced [IsEmpty ε] :
    (read : Shape ε Condition).Yields Tree.FiniteNumbers IsReproduced := by
  intro t ht c hread
  obtain ⟨w, hw, hc⟩ := Reading.exists_of_value_bind_eq_ok hread
  obtain rfl : ofWire w = c := Except.ok.inj hc
  exact isReproduced_ofWire (WireCondition.yields_isReread t ht w hw)

/-! ### Nodes that were read -/

variable [IsEmpty ε]

theorem Position.yields_isFinite :
    (read : Shape ε Position).Yields Tree.FiniteNumbers Position.IsFinite := by
  let I (d : Option Binary64 × Option Binary64) : Prop :=
    (∀ x ∈ d.1, x.isFinite = true) ∧ ∀ y ∈ d.2, y.isFinite = true
  refine yields_record (I := I) ?_ ⟨fun _ => nofun, fun _ => nofun⟩ fun d p hd hfinish => ?_
  · simp only [fields, List.forall_mem_cons]
    exact ⟨keeps_of yields_float fun x hx d hd => ⟨by simpa using hx, hd.2⟩,
      keeps_of yields_float fun y hy d hd => ⟨hd.1, by simpa using hy⟩, by simp⟩
  · simp only [Option.bind_eq_bind, Option.bind_eq_some_iff] at hfinish
    obtain ⟨x, hx, y, hy, hp⟩ := hfinish
    obtain rfl := Option.some.inj hp
    exact ⟨hd.1 x hx, hd.2 y hy⟩

namespace NodeData

def Draft.IsStorable (d : Draft) : Prop :=
  (∀ c ∈ d.config, c.IsStored ∧ c ≠ .null) ∧ ∀ c ∈ d.conditions, c.IsReproduced

theorem yields_isStorable :
    (read : Shape ε NodeData).Yields Tree.FiniteNumbers IsStorable := by
  refine yields_record (I := Draft.IsStorable) ?_ ⟨fun _ => nofun, fun _ => nofun⟩
    fun d data hd hfinish => ?_
  · simp only [fields, List.forall_mem_cons]
    refine ⟨?_, ?_, ?_, ?_,
      keeps_of (yields_optional fun t ht => yields_anything t ht.2) fun config hconfig d hd =>
        ⟨hconfig, hd.2⟩,
      keeps_of (yields_list Condition.yields_isReproduced) fun conditions hconditions d hd =>
        ⟨hd.1, hconditions⟩, by simp⟩ <;>
    exact keeps_of_put fun _ _ hd => hd
  · simp only [Draft.finish, Option.bind_eq_bind, Option.bind_eq_some_iff] at hfinish
    obtain ⟨label, -, hdata⟩ := hfinish
    obtain rfl := Option.some.inj hdata
    exact ⟨hd.1, hd.2⟩

end NodeData

namespace Node

def Draft.IsStorable (d : Draft) : Prop :=
  (∀ p ∈ d.position, p.IsFinite) ∧ ∀ data ∈ d.data, data.IsStorable

theorem yields_isStorable :
    (read : Shape ε Node).Yields Tree.FiniteNumbers IsStorable := by
  refine yields_record (I := Draft.IsStorable) ?_ ⟨fun _ => nofun, fun _ => nofun⟩
    fun d n hd hfinish => ?_
  · simp only [fields, List.forall_mem_cons]
    exact ⟨keeps_of_put fun _ _ hd => hd, keeps_of_put fun _ _ hd => hd,
      keeps_of Position.yields_isFinite fun p hp d hd => ⟨by simpa using hp, hd.2⟩,
      keeps_of NodeData.yields_isStorable fun data hdata d hd => ⟨hd.1, by simpa using hdata⟩,
      by simp⟩
  · simp only [Draft.finish, Option.bind_eq_bind, Option.bind_eq_some_iff] at hfinish
    obtain ⟨id, -, kind, -, position, hposition, data, hdata, hn⟩ := hfinish
    obtain rfl := Option.some.inj hn
    exact ⟨hd.1 position hposition, hd.2 data hdata⟩

end Node

theorem Graph.yields_isStorable :
    (read : Shape ε Graph).Yields Tree.FiniteNumbers fun g => ∀ n ∈ g.nodes, n.IsStorable := by
  refine yields_record (I := fun g : Graph => ∀ n ∈ g.nodes, n.IsStorable) ?_ (fun _ => nofun)
    fun d g hd hfinish => ?_
  · simp only [fields, List.forall_mem_cons]
    exact ⟨keeps_of (yields_list Node.yields_isStorable) fun nodes hnodes g _ => hnodes,
      keeps_of_put fun _ _ hg => hg, by simp⟩
  · exact Option.some.inj hfinish ▸ hd

end SegmentFlow
