import SegmentFlow.Compile.Clause
/-!
# What the clauses of a condition say

A condition about an anniversary has two clauses, on the day and on the month, and any other has one.
The clauses depend on little of the condition: on the operator, on the value, on whether it is about
an anniversary, and, for a between operator alone, on the bounds to compare with.
-/

namespace SegmentFlow

open Query (Clause Comparison Predicate)

theorem Bounds.toJson_inj {b b' : Bounds} : b.toJson = b'.toJson ↔ b = b' := by
  obtain ⟨first, last⟩ := b
  obtain ⟨first', last'⟩ := b'
  simp [toJson]

theorem Operator.isUnary_iff {o : Operator} :
    o.isUnary = true ↔ o = .isEmpty ∨ o = .isNotEmpty := by
  cases o <;> simp [isUnary]

/-- What a between operator compares by. -/
def Operator.spanComparison? : Operator → Option Comparison
  | .dateBetween => some .between
  | .dateNotBetween => some .notBetween
  | _ => none

theorem Operator.spanComparison?_eq_some_iff {o : Operator} {k : Comparison} :
    o.spanComparison? = some k
      ↔ o = .dateBetween ∧ k = .between ∨ o = .dateNotBetween ∧ k = .notBetween := by
  cases o <;> simp [spanComparison?, eq_comm]

namespace Condition

variable {c c' : Condition} {key : String}

theorem isAnniversary_iff : c.isAnniversary = true
    ↔ c.kind = .date .anniversary ∧ c.operator = .equals ∧ c.value = .text "anniversary" := by
  simp [isAnniversary, and_assoc]

theorem isBetween_iff :
    c.isBetween = true ↔ c.operator = .dateBetween ∨ c.operator = .dateNotBetween := by
  simp [isBetween]

theorem isBetween_iff_spanComparison :
    c.isBetween = true ↔ ∃ k, c.operator.spanComparison? = some k := by
  rw [isBetween_iff]
  cases c.operator <;> simp [Operator.spanComparison?]

/-! ### One clause or two -/

theorem clauses_of_isAnniversary (h : c.isAnniversary = true) (key : String) :
    c.clauses key = [⟨key, .occurs .currentDay⟩, ⟨key, .occurs .currentMonth⟩] := by
  rw [clauses, if_pos h]

theorem clauses_of_not_isAnniversary (h : c.isAnniversary = false) (key : String) :
    c.clauses key = [c.clause key] := by
  rw [clauses, h, if_neg Bool.false_ne_true]

theorem length_clauses (c : Condition) (key : String) :
    (c.clauses key).length = if c.isAnniversary then 2 else 1 := by
  rw [clauses]
  split <;> rfl

theorem clauses_ne_nil (c : Condition) (key : String) : c.clauses key ≠ [] := by
  rw [clauses]
  split <;> exact List.cons_ne_nil _ _

theorem clauses_eq_dayAndMonth_iff :
    c.clauses key = [⟨key, .occurs .currentDay⟩, ⟨key, .occurs .currentMonth⟩]
      ↔ c.isAnniversary = true := by
  refine ⟨fun h => ?_, fun h => clauses_of_isAnniversary h key⟩
  have hlength := c.length_clauses key
  rw [h] at hlength
  cases hanniversary : c.isAnniversary with
  | true => rfl
  | false => simp [hanniversary] at hlength

theorem field_of_mem_clauses {p : Clause} (hp : p ∈ c.clauses key) : p.field = key := by
  rw [clauses] at hp
  split at hp
  · simp only [List.mem_cons, List.not_mem_nil, or_false] at hp
    rcases hp with rfl | rfl <;> rfl
  · rw [List.mem_singleton.1 hp]
    rfl

/-! ### What the clauses depend on -/

theorem isAnniversary_congr (hoperator : c.operator = c'.operator) (hvalue : c.value = c'.value)
    (hkind : c.kind = .date .anniversary ↔ c'.kind = .date .anniversary) :
    c.isAnniversary = c'.isAnniversary := by
  simp only [isAnniversary, hoperator, hvalue, hkind]

/-- Bounds count for a between operator alone. -/
theorem predicate_congr (hoperator : c.operator = c'.operator) (hvalue : c.value = c'.value)
    (hbounds : c.isBetween = true → c.rangeBounds? = c'.rangeBounds?) (key : String) :
    c.predicate key = c'.predicate key := by
  rw [isBetween_iff, hoperator] at hbounds
  rw [predicate, predicate, hoperator, hvalue]
  cases hoperator' : c'.operator with
  | dateBetween => rw [hbounds (.inl hoperator')]
  | dateNotBetween => rw [hbounds (.inr hoperator')]
  | _ => rfl

theorem clauses_congr (hoperator : c.operator = c'.operator) (hvalue : c.value = c'.value)
    (hkind : c.kind = .date .anniversary ↔ c'.kind = .date .anniversary)
    (hbounds : c.isBetween = true → c.rangeBounds? = c'.rangeBounds?) (key : String) :
    c.clauses key = c'.clauses key := by
  rw [clauses, clauses, clause, clause, isAnniversary_congr hoperator hvalue hkind,
    predicate_congr hoperator hvalue hbounds]

/-! ### Single predicates -/

/-- Only the clauses of an anniversary test a part of the date. -/
theorem predicate_ne_occurs (c : Condition) (key : String) (part : Query.DatePart) :
    c.predicate key ≠ .occurs part := by
  rw [predicate]
  cases c.operator with
  | equals => exact nofun
  | greaterThan => dsimp only; split <;> exact nofun
  | dateBetween | dateNotBetween => cases c.rangeBounds? <;> exact nofun
  | _ => exact nofun

/-- Where an anniversary is not told by its day and its month, the field is compared with the word. -/
theorem predicate_of_isAnniversary (h : c.isAnniversary = true) (hkey : key ≠ genderField) :
    c.predicate key = .equals (.str "anniversary") := by
  obtain ⟨-, hoperator, hvalue⟩ := isAnniversary_iff.1 h
  simp [predicate, hoperator, hvalue, hkey, ConditionValue.toTree]

section Span

variable {k : Comparison} (hspan : c.operator.spanComparison? = some k) (key : String)
include hspan

theorem isAnniversary_of_spanComparison : c.isAnniversary = false := by
  rcases Operator.spanComparison?_eq_some_iff.1 hspan with ⟨hop, -⟩ | ⟨hop, -⟩ <;>
    simp [isAnniversary, hop]

theorem predicate_of_rangeBounds {b : Bounds} (hbounds : c.rangeBounds? = some b) :
    c.predicate key = .compare k b.toJson := by
  rw [predicate]
  rcases Operator.spanComparison?_eq_some_iff.1 hspan with ⟨hop, rfl⟩ | ⟨hop, rfl⟩ <;>
    rw [hop, hbounds]

/-- Without bounds a between operator compares with the value itself. -/
theorem predicate_of_not_rangeBounds (hbounds : c.rangeBounds? = none) :
    c.predicate key = .equals c.value.toTree ∨ c.predicate key = .compare .notEqual c.value.toTree := by
  rw [predicate]
  rcases Operator.spanComparison?_eq_some_iff.1 hspan with ⟨hop, -⟩ | ⟨hop, -⟩ <;>
    rw [hop, hbounds]
  · exact .inl rfl
  · exact .inr rfl

theorem predicate_eq_span_iff {b : Bounds} :
    c.predicate key = .compare k b.toJson ↔ c.rangeBounds? = some b := by
  refine ⟨fun h => ?_, predicate_of_rangeBounds hspan key⟩
  cases hbounds : c.rangeBounds? with
  | some b' =>
      rw [predicate_of_rangeBounds hspan key hbounds, Predicate.compare.injEq, Bounds.toJson_inj] at h
      rw [h.2]
  | none =>
      rcases predicate_of_not_rangeBounds hspan key hbounds with hvalue | hvalue <;>
        rw [hvalue] at h
      · exact nomatch h
      · obtain ⟨rfl, -⟩ := (Predicate.compare.injEq ..).mp h
        simp [Operator.spanComparison?_eq_some_iff] at hspan

theorem clauses_eq_span_iff {b : Bounds} :
    c.clauses key = [⟨key, .compare k b.toJson⟩] ↔ c.rangeBounds? = some b := by
  rw [clauses_of_not_isAnniversary (isAnniversary_of_spanComparison hspan),
    ← predicate_eq_span_iff hspan key, List.singleton_inj, clause, Clause.mk.injEq]
  exact and_iff_right rfl

end Span

/-- The clauses of a between operator tell the bounds. -/
theorem rangeBounds?_eq_of_clauses_eq (hoperator : c.operator = c'.operator)
    (hbetween : c.isBetween = true) (h : c.clauses key = c'.clauses key) :
    c.rangeBounds? = c'.rangeBounds? := by
  obtain ⟨k, hspan⟩ := isBetween_iff_spanComparison.1 hbetween
  have hspan' : c'.operator.spanComparison? = some k := hoperator ▸ hspan
  refine Option.ext fun b => ?_
  rw [← clauses_eq_span_iff hspan key, h, clauses_eq_span_iff hspan' key]

end Condition

end SegmentFlow
