import SegmentFlow.Proofs.Canvas.Loaded
/-!
# Which conditions the wire reproduces

A record has room for less than a condition may say. Its open words are told apart by their spelling
alone, an empty collection is none, and there is one pair of bounds, which counts only if neither
bound is empty. A condition is canonical if it needs no more than that. `reloaded` is what a
condition comes back as, told part by part, and the canonical conditions are the ones that it leaves
as they are. Whatever a record stands for is canonical.
-/

namespace SegmentFlow

/-! ### Open words -/

/-- The search falls back on `other` for the names that are not known. -/
theorem getD_find?_eq_iff {α : Type} {known : List α} {name : α → String} {other : α} {s : String}
    (hother : other ∉ known) :
    (known.find? fun k => name k = s).getD other = other ↔ s ∉ known.map name := by
  cases hknown : known.find? fun k => name k = s with
  | none =>
      have hnone : s ∉ known.map name := by simpa using hknown
      exact iff_of_true rfl hnone
  | some k =>
      have hmem : k ∈ known := List.mem_of_find?_eq_some hknown
      have hname : name k = s := by simpa using List.find?_some hknown
      refine iff_of_false (fun heq => hother (heq ▸ hmem)) fun hnone => hnone ?_
      exact hname ▸ List.mem_map_of_mem hmem

/-- The operator does not spell out the name of a known one. -/
def Operator.IsPlain (o : Operator) : Prop :=
  ∀ s, o = .other s → s ∉ known.map name

theorem Operator.ofName_name_eq_iff (o : Operator) : ofName o.name = o ↔ o.IsPlain := by
  cases o with
  | other s =>
      have hother : other s ∉ known := by simp [known]
      have hplain : (other s).IsPlain ↔ s ∉ known.map name := by simp [IsPlain]
      rw [hplain]
      exact getD_find?_eq_iff hother
  | _ => exact iff_of_true rfl nofun

/-- The collection has a name, and does not spell out that of a known one. -/
structure Collection.IsPlain (k : Collection) : Prop where
  name_ne : k.name ≠ ""
  not_known : ∀ s, k = .other s → s ∉ known.map name

theorem Collection.ofName_name_eq_iff (k : Collection) :
    ofName k.name = k ↔ ∀ s, k = .other s → s ∉ known.map name := by
  cases k with
  | other s =>
      have hother : other s ∉ known := by simp [known]
      have hplain : (∀ t, other s = .other t → t ∉ known.map name) ↔ s ∉ known.map name := by simp
      rw [hplain]
      exact getD_find?_eq_iff hother
  | _ => exact iff_of_true rfl nofun

/-! ### Bounds -/

/-- Neither bound is empty. -/
def Bounds.IsFull (b : Bounds) : Prop :=
  b.first ≠ "" ∧ b.last ≠ ""

instance (b : Bounds) : Decidable b.IsFull :=
  inferInstanceAs (Decidable (_ ∧ _))

theorem FieldKind.bounds?_eq_some_iff {k : FieldKind} {b : Bounds} :
    k.dateRule?.bind DateRule.bounds? = some b ↔ k = .date (.range b) := by
  cases k with
  | date rule => cases rule <;> simp [dateRule?, DateRule.bounds?]
  | _ => simp [dateRule?]

namespace Condition

/-- The condition says nothing that its record has no room for. -/
structure IsCanonical (c : Condition) : Prop where
  operator : c.operator.IsPlain
  collection : ∀ k ∈ c.collection, k.IsPlain
  range : ∀ b, c.kind = .date (.range b) → b.IsFull ∧ c.betweenBounds = none
  betweenBounds : ∀ b ∈ c.betweenBounds, b.IsFull

/-! ### What comes back -/

variable {c : Condition} {b : Bounds}

theorem bounds?_toWire (c : Condition) :
    c.toWire.bounds?
      = (c.betweenBounds.or (c.kind.dateRule?.bind DateRule.bounds?)).filter fun b => b.IsFull := by
  rw [toWire, WireCondition.bounds?]
  cases c.betweenBounds.or (c.kind.dateRule?.bind DateRule.bounds?) with
  | none => rfl
  | some b =>
      by_cases hfull : b.IsFull
      · have hempty : ¬ (b.first = "" ∨ b.last = "") := not_or.2 hfull
        rw [Option.filter_some, if_pos (decide_eq_true hfull)]
        exact if_neg hempty
      · have hempty : b.first = "" ∨ b.last = "" := by
          rwa [Bounds.IsFull, not_and_or, not_ne_iff, not_ne_iff] at hfull
        rw [Option.filter_some, if_neg (by simpa using hfull)]
        exact if_pos hempty

/-- Only a range of dates depends on the bounds that were written. -/
theorem kind_toWire (h : ∀ b, c.kind ≠ .date (.range b)) : c.toWire.kind = c.kind := by
  rw [WireCondition.kind, toWire]
  cases hkind : c.kind with
  | date rule =>
      cases rule with
      | range b => exact absurd hkind (h b)
      | _ => rfl
  | _ => rfl

theorem kind_toWire_of_range (h : c.kind = .date (.range b)) :
    c.toWire.kind = .date ((c.toWire.bounds?.map DateRule.range).getD .specific) := by
  have htype : c.toWire.fieldType = .date := by rw [toWire, h]; rfl
  have hdate : c.toWire.dateType = some .range := by rw [toWire, h]; rfl
  rw [WireCondition.kind, htype, WireCondition.dateRule, hdate]
  cases c.toWire.bounds? <;> rfl

/-- What the condition is read as again, once it was written. -/
def reloaded (c : Condition) : Condition :=
  ofWire c.toWire.reread

theorem value_read_toTree (c : Condition) :
    (read (c.toTree : Json).normal).value = .ok c.reloaded := by
  have h := readsBack_reread Empty c
  rwa [Shape.ReadsBack, Tree.lift_self] at h

section Range

variable (hrange : ∀ b, c.kind ≠ .date (.range b))
include hrange

theorem kind_reloaded : c.reloaded.kind = c.kind :=
  kind_toWire hrange

theorem betweenBounds_reloaded :
    c.reloaded.betweenBounds = c.betweenBounds.filter fun b => b.IsFull := by
  have hnone : c.kind.dateRule?.bind DateRule.bounds? = none :=
    Option.eq_none_iff_forall_ne_some.2 fun b h => hrange b (FieldKind.bounds?_eq_some_iff.1 h)
  change (if (c.toWire.kind.dateRule?.bind DateRule.bounds?).isSome then none
    else c.toWire.bounds?) = _
  rw [kind_toWire hrange, bounds?_toWire, hnone, Option.or_none]
  exact if_neg Bool.false_ne_true

end Range

/-- A range of dates comes back with the bounds beside it, if there are any, and without them. -/
theorem kind_reloaded_of_range (hrange : c.kind = .date (.range b)) : c.reloaded.kind
    = .date (if (c.betweenBounds.getD b).IsFull then .range (c.betweenBounds.getD b)
        else .specific) := by
  change c.toWire.kind = _
  rw [kind_toWire_of_range hrange, bounds?_toWire, FieldKind.bounds?_eq_some_iff.2 hrange,
    Option.or_some, Option.filter_some]
  by_cases hfull : (c.betweenBounds.getD b).IsFull <;> simp [hfull]

theorem betweenBounds_reloaded_of_range (hrange : c.kind = .date (.range b)) :
    c.reloaded.betweenBounds = none := by
  change (if (c.toWire.kind.dateRule?.bind DateRule.bounds?).isSome then none
    else c.toWire.bounds?) = _
  rw [kind_toWire_of_range hrange]
  cases c.toWire.bounds? <;> rfl

theorem bounds_reloaded_eq_iff :
    (c.reloaded.kind = c.kind ∧ c.reloaded.betweenBounds = c.betweenBounds)
      ↔ (∀ b, c.kind = .date (.range b) → b.IsFull ∧ c.betweenBounds = none)
        ∧ ∀ b ∈ c.betweenBounds, b.IsFull := by
  by_cases hrange : ∃ b, c.kind = .date (.range b)
  · obtain ⟨b, hrange⟩ := hrange
    rw [kind_reloaded_of_range hrange, betweenBounds_reloaded_of_range hrange]
    cases c.betweenBounds with
    | some b' => simp [hrange]
    | none => by_cases hfull : b.IsFull <;> simp [hrange, hfull]
  · rw [not_exists] at hrange
    rw [kind_reloaded hrange, betweenBounds_reloaded hrange]
    cases c.betweenBounds <;> simp [hrange, Option.filter_some]

theorem collection_reloaded_eq_iff :
    c.reloaded.collection = c.collection ↔ ∀ k ∈ c.collection, k.IsPlain := by
  change ((c.collection.map Collection.name).map Collection.ofName).filter
    (fun k => k.name ≠ "") = c.collection ↔ _
  cases c.collection with
  | none => simp
  | some k =>
      have hplain : k.IsPlain ↔ Collection.ofName k.name = k ∧ k.name ≠ "" := by
        rw [k.ofName_name_eq_iff]
        exact ⟨fun h => ⟨h.not_known, h.name_ne⟩, fun h => ⟨h.2, h.1⟩⟩
      simp [Option.filter_some, Collection.name_ofName, hplain, and_comm]

theorem reloaded_eq_iff : c.reloaded = c
    ↔ Operator.ofName c.operator.name = c.operator ∧ c.reloaded.collection = c.collection
      ∧ c.reloaded.kind = c.kind ∧ c.reloaded.betweenBounds = c.betweenBounds := by
  constructor
  · intro h
    refine ⟨congrArg Condition.operator h, ?_⟩
    rw [h]
    exact ⟨rfl, rfl, rfl⟩
  · rintro ⟨hoperator, hcollection, hkind, hbounds⟩
    have hparts : c.reloaded
        = { c with
            operator := .ofName c.operator.name
            collection := c.reloaded.collection
            kind := c.reloaded.kind
            betweenBounds := c.reloaded.betweenBounds } := rfl
    rw [hparts, hoperator, hcollection, hkind, hbounds]

theorem isReproduced_iff_isCanonical : c.IsReproduced ↔ c.IsCanonical := by
  have hreloaded : c.IsReproduced ↔ c.reloaded = c := isReproduced_iff
  rw [hreloaded, reloaded_eq_iff, c.operator.ofName_name_eq_iff, collection_reloaded_eq_iff,
    bounds_reloaded_eq_iff]
  constructor
  · rintro ⟨hoperator, hcollection, hrange, hbetween⟩
    exact ⟨hoperator, hcollection, hrange, hbetween⟩
  · intro h
    exact ⟨h.operator, h.collection, h.range, h.betweenBounds⟩

end Condition

/-! ### What a record stands for -/

/-- The open words of the record were made from names. -/
structure WireCondition.IsNamed (w : WireCondition) : Prop where
  operator : ∃ s, w.operator = .ofName s
  collection : ∀ k ∈ w.collection, ∃ s, k = .ofName s

theorem WireCondition.IsNamed.isReread {w : WireCondition} (hw : w.IsNamed) : w.IsReread where
  operator := by
    obtain ⟨s, hs⟩ := hw.operator
    rw [hs, Operator.name_ofName]
  collection := by
    intro k hk
    obtain ⟨s, rfl⟩ := hw.collection k hk
    rw [Collection.name_ofName]

namespace Condition

/-- A condition comes back as it was exactly if it is canonical, and what a record stands for is, so
that it is the same when it is written and read once more. -/
theorem reproduces_exactly_canonical :
    (∀ c : Condition, (read (c.toTree : Json).normal).value = .ok c ↔ c.IsCanonical)
      ∧ ∀ w : WireCondition, w.IsNamed → (ofWire w).IsCanonical
          ∧ (read ((ofWire w).toTree : Json).normal).value = .ok (ofWire w) := by
  refine ⟨fun c => isReproduced_iff_isCanonical, fun w hw => ?_⟩
  have hreproduced : (ofWire w).IsReproduced := isReproduced_ofWire hw.isReread
  exact ⟨isReproduced_iff_isCanonical.1 hreproduced, hreproduced⟩

/-- A range of dates without its last date, in no collection. -/
def openRange : WireCondition where
  id := "c1"
  dataSource := none
  collection := some (.ofName "")
  field := "order_date"
  fieldType := .date
  operator := .ofName "date_between"
  value := .text ""
  selectOptions := none
  connective := none
  dateType := some .range
  periodCount := none
  periodUnit := none
  dateFrom := some "2024-01-01"
  dateTo := none

theorem reproduces_openRange : openRange.IsNamed
    ∧ (ofWire openRange).kind = .date .specific ∧ (ofWire openRange).collection = none
    ∧ (ofWire openRange).IsCanonical
    ∧ (read ((ofWire openRange).toTree : Json).normal).value = .ok (ofWire openRange) := by
  have hnamed : openRange.IsNamed :=
    ⟨⟨"date_between", rfl⟩, fun k hk => ⟨"", (Option.some.inj hk).symm⟩⟩
  exact ⟨hnamed, by decide, by decide, reproduces_exactly_canonical.2 openRange hnamed⟩

end Condition

end SegmentFlow
