import SegmentFlow.Proofs.Compile.Reloaded
/-!
# The bounds of a record

A record names two bounds next to all its other members, whatever kind of field and type of date it
is for. A range of dates takes them up; with every other kind of field and every other type of date
they stay beside it. A between operator finds them in either place, so the tags of the record do not
matter to its clause, and no other operator looks at bounds at all.
-/

namespace SegmentFlow

namespace WireCondition

variable {w : WireCondition} {first last : String}

/-- The record names both bounds, and neither is empty. -/
structure Spans (w : WireCondition) (first last : String) : Prop where
  dateFrom : w.dateFrom = some first
  dateTo : w.dateTo = some last
  first_ne : first ≠ ""
  last_ne : last ≠ ""

theorem bounds?_eq_some_iff_spans : w.bounds? = some ⟨first, last⟩ ↔ w.Spans first last := by
  rw [bounds?_eq_some_iff]
  constructor
  · rintro ⟨hfrom, hto, hfirst, hlast⟩
    exact ⟨hfrom, hto, hfirst, hlast⟩
  · intro h
    exact ⟨h.dateFrom, h.dateTo, h.first_ne, h.last_ne⟩

theorem bounds?_eq_none (hspans : ∀ first last, ¬ w.Spans first last) : w.bounds? = none := by
  apply Option.eq_none_iff_forall_ne_some.2
  rintro ⟨first, last⟩ hbounds
  exact hspans first last (bounds?_eq_some_iff_spans.1 hbounds)

/-- The record without its bounds. -/
def unbounded (w : WireCondition) : WireCondition :=
  { w with dateFrom := none, dateTo := none }

end WireCondition

namespace Condition

open Query (Comparison)
open WireCondition (Spans bounds?_eq_some_iff_spans bounds?_eq_none)

variable {w : WireCondition} {first last : String} {k : Comparison}

theorem clause_ofWire_of_spans (hspan : w.operator.spanComparison? = some k)
    (hspans : w.Spans first last) (key : String) :
    (ofWire w).clause key = ⟨key, .compare k (.arr [.str first, .str last])⟩ := by
  have hbounds : (ofWire w).rangeBounds? = some ⟨first, last⟩ := by
    rw [rangeBounds?_ofWire, bounds?_eq_some_iff_spans.2 hspans]
  rw [clause, predicate_of_rangeBounds hspan key hbounds]
  rfl

theorem rangeBounds?_ofWire_eq_none (hspans : ∀ first last, ¬ w.Spans first last) :
    (ofWire w).rangeBounds? = none := by
  rw [rangeBounds?_ofWire, bounds?_eq_none hspans]

theorem clause_ofWire_unbounded (hbetween : (ofWire w).isBetween = false) (key : String) :
    (ofWire w).clause key = (ofWire w.unbounded).clause key := by
  have hnever : (ofWire w).isBetween = true
      → (ofWire w).rangeBounds? = (ofWire w.unbounded).rangeBounds? := by
    intro h
    exact nomatch hbetween.symm.trans h
  have hoperator : (ofWire w).operator = (ofWire w.unbounded).operator := rfl
  have hvalue : (ofWire w).value = (ofWire w.unbounded).value := rfl
  rw [clause, clause, predicate_congr hoperator hvalue hnever key]

/-- What a record asks of a field, as far as its bounds go. A between operator compares with both of
them, or else with the value; for every other operator they might as well not be there. -/
theorem clause_ofWire_bounds (w : WireCondition) (key : String) :
    (w.operator = .dateBetween →
        (∀ first last, w.Spans first last →
            (ofWire w).clause key = ⟨key, .compare .between (.arr [.str first, .str last])⟩)
          ∧ ((∀ first last, ¬ w.Spans first last) →
              (ofWire w).clause key = ⟨key, .equals w.value.toTree⟩))
      ∧ (w.operator = .dateNotBetween →
          (∀ first last, w.Spans first last →
              (ofWire w).clause key = ⟨key, .compare .notBetween (.arr [.str first, .str last])⟩)
            ∧ ((∀ first last, ¬ w.Spans first last) →
                (ofWire w).clause key = ⟨key, .compare .notEqual w.value.toTree⟩))
      ∧ (w.operator ≠ .dateBetween → w.operator ≠ .dateNotBetween →
          (ofWire w).clause key = (ofWire w.unbounded).clause key) := by
  refine ⟨fun hoperator => ⟨fun first last hspans => ?_, fun hspans => ?_⟩,
    fun hoperator => ⟨fun first last hspans => ?_, fun hspans => ?_⟩, fun hbetween hnot => ?_⟩
  · have hspan : w.operator.spanComparison? = some .between := by rw [hoperator]; rfl
    exact clause_ofWire_of_spans hspan hspans key
  · have hkept : (ofWire w).operator = .dateBetween := hoperator
    rw [clause, predicate, hkept, rangeBounds?_ofWire_eq_none hspans]
    rfl
  · have hspan : w.operator.spanComparison? = some .notBetween := by rw [hoperator]; rfl
    exact clause_ofWire_of_spans hspan hspans key
  · have hkept : (ofWire w).operator = .dateNotBetween := hoperator
    rw [clause, predicate, hkept, rangeBounds?_ofWire_eq_none hspans]
    rfl
  · apply clause_ofWire_unbounded
    rw [Bool.eq_false_iff, ne_eq, isBetween_iff, not_or]
    exact ⟨hbetween, hnot⟩

/-- A condition on a number, tagged with a relative date, that has bounds besides. -/
def boundedNumber (operator : Operator) (last : String) : WireCondition where
  id := "c1"
  dataSource := none
  collection := none
  field := "point"
  fieldType := .number
  operator := operator
  value := .number (.integer 7)
  selectOptions := some ["a"]
  connective := none
  dateType := some .relative
  periodCount := some 3
  periodUnit := some .weeks
  dateFrom := some "100"
  dateTo := some last

theorem clause_ofWire_boundedNumber :
    (boundedNumber .dateBetween "200").Spans "100" "200"
      ∧ (ofWire (boundedNumber .dateBetween "200")).clause "point"
          = ⟨"point", .compare .between (.arr [.str "100", .str "200"])⟩
      ∧ (∀ first last, ¬ (boundedNumber .dateNotBetween "").Spans first last)
      ∧ (ofWire (boundedNumber .dateNotBetween "")).clause "point"
          = ⟨"point", .compare .notEqual (.num (.integer 7))⟩
      ∧ (ofWire (boundedNumber .lessThan "200")).clause "point"
          = (ofWire (boundedNumber .lessThan "200").unbounded).clause "point" := by
  have hspans : (boundedNumber .dateBetween "200").Spans "100" "200" :=
    ⟨rfl, rfl, by decide, by decide⟩
  have hempty : ∀ first last, ¬ (boundedNumber .dateNotBetween "").Spans first last := by
    intro first last h
    exact h.last_ne (Option.some.inj h.dateTo).symm
  refine ⟨hspans, ?_, hempty, ?_, ?_⟩
  · exact ((clause_ofWire_bounds _ "point").1 rfl).1 "100" "200" hspans
  · exact ((clause_ofWire_bounds _ "point").2.1 rfl).2 hempty
  · exact (clause_ofWire_bounds _ "point").2.2 (by decide) (by decide)

end Condition

end SegmentFlow
