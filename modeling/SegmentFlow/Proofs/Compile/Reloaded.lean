import SegmentFlow.Proofs.Condition.Canonical
import SegmentFlow.Proofs.Condition.Clauses
/-!
# What a condition asks for after it was stored

Storing a condition keeps its operator, its value and whether it is about an anniversary. Of two pairs
of bounds it keeps one, and that is the pair beside a range of dates, while the clauses are made from
the range. So the clauses stay as long as there are no two pairs of bounds that differ.
-/

namespace SegmentFlow

namespace Condition

variable {c c' : Condition}

/-! ### What storing keeps -/

/-- The bounds of a record are those that its condition compares with. -/
theorem rangeBounds?_ofWire (w : WireCondition) : (ofWire w).rangeBounds? = w.bounds? := by
  rw [rangeBounds?, ofWire]
  cases hrange : w.kind.dateRule?.bind DateRule.bounds? with
  | none => exact Option.none_or
  | some b => rw [Option.some_or, WireCondition.bounds?_eq_of_kind hrange]

/-- No bound of the condition is empty, be it one of a range of dates or not. -/
structure HasFullBounds (c : Condition) : Prop where
  range : ∀ b, c.kind = .date (.range b) → b.IsFull
  betweenBounds : ∀ b ∈ c.betweenBounds, b.IsFull

theorem rangeBounds?_reloaded (hfull : c.HasFullBounds) :
    c.reloaded.rangeBounds? = c.betweenBounds.or (c.kind.dateRule?.bind DateRule.bounds?) := by
  have hbounds : c.reloaded.rangeBounds? = c.toWire.bounds? := rangeBounds?_ofWire _
  rw [hbounds, bounds?_toWire]
  cases hbetween : c.betweenBounds with
  | some b => simp [hfull.betweenBounds b hbetween]
  | none =>
      rw [Option.none_or]
      cases hrange : c.kind.dateRule?.bind DateRule.bounds? with
      | some b => simp [hfull.range b (FieldKind.bounds?_eq_some_iff.1 hrange)]
      | none => rfl

/-- The bounds beside a range of dates, if there are any, are those of the range. -/
def HasOneSpan (c : Condition) : Prop :=
  ∀ b b', c.kind = .date (.range b) → c.betweenBounds = some b' → b' = b

theorem rangeBounds?_reloaded_eq_iff (hfull : c.HasFullBounds) :
    c.reloaded.rangeBounds? = c.rangeBounds? ↔ c.HasOneSpan := by
  rw [rangeBounds?_reloaded hfull, rangeBounds?, HasOneSpan]
  simp only [← FieldKind.bounds?_eq_some_iff]
  cases c.betweenBounds <;> cases c.kind.dateRule?.bind DateRule.bounds? <;> simp

theorem anniversary_reloaded_iff :
    c.reloaded.kind = .date .anniversary ↔ c.kind = .date .anniversary := by
  by_cases hrange : ∃ b, c.kind = .date (.range b)
  · obtain ⟨b, hrange⟩ := hrange
    rw [kind_reloaded_of_range hrange, hrange]
    split <;> simp
  · rw [kind_reloaded (not_exists.1 hrange)]

theorem clauses_reloaded_eq_iff (hfull : c.HasFullBounds)
    (hoperator : c.reloaded.operator = c.operator) :
    (∀ key, c.reloaded.clauses key = c.clauses key) ↔ (c.isBetween = true → c.HasOneSpan) := by
  have hbetween : c.reloaded.isBetween = c.isBetween := by rw [isBetween, isBetween, hoperator]
  rw [← rangeBounds?_reloaded_eq_iff hfull]
  constructor
  · intro h hb
    exact rangeBounds?_eq_of_clauses_eq hoperator (hbetween.trans hb) (h "")
  · intro h key
    exact clauses_congr hoperator rfl anniversary_reloaded_iff (fun hb => h (hbetween ▸ hb)) key

/-- A condition without empty bounds that is stored and read again compiles to the same clauses and
compares with the same bounds, exactly if a range of dates does not stand beside other bounds. The
clauses alone also stay where no between operator looks at the bounds. -/
theorem stored_clauses_iff (c : Condition) (hfull : c.HasFullBounds)
    (hname : ∃ s, c.operator = .ofName s) :
    ∃ c', (read (c.toTree : Json).normal).value = .ok c'
      ∧ ((∀ key, c'.clauses key = c.clauses key) ∧ c'.rangeBounds? = c.rangeBounds? ↔ c.HasOneSpan)
      ∧ ((∀ key, c'.clauses key = c.clauses key) ↔ (c.isBetween = true → c.HasOneSpan)) := by
  have hoperator : c.reloaded.operator = c.operator := by
    obtain ⟨s, hs⟩ := hname
    change Operator.ofName c.operator.name = c.operator
    rw [hs, Operator.name_ofName]
  have hclauses := clauses_reloaded_eq_iff hfull hoperator
  refine ⟨c.reloaded, c.value_read_toTree, ?_, hclauses⟩
  rw [hclauses, rangeBounds?_reloaded_eq_iff hfull]
  exact ⟨fun h => h.2, fun h => ⟨fun _ => h, h⟩⟩

/-! ### A range of dates beside other bounds

The clause compares with the range, which is what the condition was entered for. The record is
written with the bounds beside it, and the condition that is read from it compares with those. -/

def orderedInJanuary (beside : Option Bounds) : Condition where
  id := "c1"
  dataSource := none
  collection := none
  field := "order_date"
  kind := .date (.range ⟨"2024-01-01", "2024-01-31"⟩)
  operator := .ofName "date_between"
  value := .text ""
  connective := none
  betweenBounds := beside

theorem hasFullBounds_orderedInJanuary {beside : Option Bounds} (h : ∀ b ∈ beside, b.IsFull) :
    (orderedInJanuary beside).HasFullBounds := by
  refine ⟨?_, h⟩
  rintro b ⟨⟩
  decide

theorem stored_clauses_orderedInJanuary :
    (orderedInJanuary none).HasFullBounds
      ∧ (∃ s, (orderedInJanuary none).operator = .ofName s)
      ∧ (orderedInJanuary none).HasOneSpan
      ∧ ∃ c', (read ((orderedInJanuary none).toTree : Json).normal).value = .ok c'
          ∧ (∀ key, c'.clauses key = (orderedInJanuary none).clauses key)
          ∧ c'.rangeBounds? = some ⟨"2024-01-01", "2024-01-31"⟩ := by
  have hfull : (orderedInJanuary none).HasFullBounds := hasFullBounds_orderedInJanuary nofun
  have hname : ∃ s, (orderedInJanuary none).operator = .ofName s := ⟨"date_between", rfl⟩
  have hspan : (orderedInJanuary none).HasOneSpan := fun _ _ _ => nofun
  obtain ⟨c', hread, hkept, -⟩ := stored_clauses_iff _ hfull hname
  obtain ⟨hclauses, hbounds⟩ := hkept.2 hspan
  exact ⟨hfull, hname, hspan, c', hread, hclauses, hbounds⟩

def januaryBesideMay : Condition :=
  orderedInJanuary (some ⟨"2024-05-01", "2024-05-31"⟩)

theorem changed_januaryBesideMay :
    januaryBesideMay.HasFullBounds ∧ januaryBesideMay.operator = .ofName "date_between"
      ∧ ∃ c', (read (januaryBesideMay.toTree : Json).normal).value = .ok c'
          ∧ januaryBesideMay.clauses "order_date"
              = [⟨"order_date", .compare .between (.arr [.str "2024-01-01", .str "2024-01-31"])⟩]
          ∧ c'.clauses "order_date"
              = [⟨"order_date", .compare .between (.arr [.str "2024-05-01", .str "2024-05-31"])⟩]
          ∧ januaryBesideMay.rangeBounds? = some ⟨"2024-01-01", "2024-01-31"⟩
          ∧ c'.rangeBounds? = some ⟨"2024-05-01", "2024-05-31"⟩ := by
  refine ⟨hasFullBounds_orderedInJanuary ?_, rfl, januaryBesideMay.reloaded,
    value_read_toTree _, ?_⟩
  · rintro b ⟨⟩
    decide
  · decide

end Condition

end SegmentFlow
