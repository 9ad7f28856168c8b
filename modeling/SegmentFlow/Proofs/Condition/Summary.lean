import SegmentFlow.Proofs.Condition.Clauses
/-!
# Whether a summary tells what is queried

A summary and the clauses of a condition are made by separate case analyses. They differ in how they
take an anniversary: the summary looks at the kind of the field, the clauses also at the operator and
the value, and a between operator compares with its bounds even there. Bounds are told as they are
compared with for every other kind. Without bounds nothing is between, though a value that is spelled
like two bounds reads as if it were.
-/

namespace SegmentFlow

open Query (Comparison)

/-! ### Texts that differ -/

namespace Operator

theorem symbol_of_spanComparison {o : Operator} {k : Comparison}
    (hspan : o.spanComparison? = some k) : o.symbol = k.symbol := by
  rcases spanComparison?_eq_some_iff.1 hspan with ⟨rfl, rfl⟩ | ⟨rfl, rfl⟩ <;> rfl

theorem isUnary_of_spanComparison {o : Operator} {k : Comparison}
    (hspan : o.spanComparison? = some k) : o.isUnary = false := by
  rcases spanComparison?_eq_some_iff.1 hspan with ⟨rfl, -⟩ | ⟨rfl, -⟩ <;> rfl

theorem mem_known_of_spanComparison {o : Operator} {k : Comparison}
    (hspan : o.spanComparison? = some k) : o ∈ known := by
  rcases spanComparison?_eq_some_iff.1 hspan with ⟨rfl, -⟩ | ⟨rfl, -⟩ <;> decide

/-- Among the known operators only the unary ones begin as the text about an anniversary does. -/
theorem head?_symbol_ne :
    ∀ o ∈ known, o.isUnary = false → o.symbol ≠ "" ∧ o.symbol.toList.head? ≠ some 'i' := by
  decide

theorem binary_ne_anniversary {o : Operator} (hknown : o ∈ known) (hbinary : o.isUnary = false)
    (field comparand : String) :
    field ++ " " ++ o.symbol ++ " " ++ comparand ≠ field ++ " is anniversary" := by
  intro heq
  obtain ⟨hne, hhead⟩ := head?_symbol_ne o hknown hbinary
  have htexts : o.symbol ++ (" " ++ comparand) = "is anniversary" := by
    have hspace : " is anniversary" = " " ++ "is anniversary" := rfl
    simpa only [hspace, String.append_assoc, String.append_right_inj] using heq
  have hfirst := congrArg (fun s => s.toList.head?) htexts
  rw [String.toList_append, List.head?_append, Option.or_of_isSome (by simpa using hne)] at hfirst
  exact hhead hfirst

theorem unary_ne_anniversary {o : Operator} (hunary : o.isUnary = true) (field : String) :
    field ++ " " ++ o.symbol ≠ field ++ " is anniversary" := by
  intro heq
  rw [String.append_assoc, String.append_right_inj] at heq
  rcases isUnary_iff.1 hunary with rfl | rfl <;> exact absurd heq (by decide)

end Operator

theorem Bounds.display_ne_dateRange (b : Bounds) : b.display ≠ "date range" := by
  intro heq
  have hdash : '-' ∈ b.display.toList := by simp [display]
  rw [heq] at hdash
  exact absurd hdash (by decide)

namespace Condition

variable {c : Condition}

theorem summary_eq_anniversary_iff (hknown : c.operator ∈ Operator.known) :
    c.summary = c.field ++ " is anniversary"
      ↔ c.kind = .date .anniversary ∧ c.operator.isUnary = false := by
  rw [summary]
  split
  · next hunary =>
      exact iff_of_false (Operator.unary_ne_anniversary hunary _)
        fun h => Bool.false_ne_true (h.2.symm.trans hunary)
  · next hbinary =>
      rw [Bool.not_eq_true] at hbinary
      split
      · next hkind => exact iff_of_true rfl ⟨hkind, hbinary⟩
      · next hkind =>
          exact iff_of_false (Operator.binary_ne_anniversary hknown hbinary _ _) fun h => hkind h.1

/-! ### Between operators -/

section Span

variable {k : Comparison} (hspan : c.operator.spanComparison? = some k)
include hspan

/-- A range of dates is told first, and it is also the first that is taken for bounds. -/
theorem comparand_of_spanComparison :
    c.comparand
      = c.rangeBounds?.elim (if c.kind.dateRule?.isSome then "date range" else c.value.display)
          Bounds.display := by
  rw [comparand, isBetween_iff_spanComparison.2 ⟨k, hspan⟩]
  cases hrule : c.kind.dateRule? with
  | none => cases c.rangeBounds? <;> rfl
  | some rule =>
      cases rule with
      | range b =>
          have hbounds : c.rangeBounds? = some b := by
            rw [rangeBounds?, hrule]
            rfl
          rw [hbounds]
          rfl
      | _ => cases c.rangeBounds? <;> rfl

theorem summary_eq_span_iff {text : String} :
    c.summary = c.field ++ " " ++ k.symbol ++ " " ++ text
      ↔ c.kind ≠ .date .anniversary ∧ c.comparand = text := by
  have hbinary := Operator.isUnary_of_spanComparison hspan
  have hsymbol := Operator.symbol_of_spanComparison hspan
  by_cases hkind : c.kind = .date .anniversary
  · have hsummary : c.summary = c.field ++ " is anniversary" :=
      (summary_eq_anniversary_iff (Operator.mem_known_of_spanComparison hspan)).2 ⟨hkind, hbinary⟩
    rw [hsummary, ← hsymbol]
    exact iff_of_false (Ne.symm (Operator.binary_ne_anniversary
      (Operator.mem_known_of_spanComparison hspan) hbinary _ _)) fun h => h.1 hkind
  · rw [summary, hbinary, if_neg Bool.false_ne_true, if_neg hkind, hsymbol, String.append_right_inj]
    exact (and_iff_right hkind).symm

theorem summary_eq_bounds_iff {b : Bounds} (hbounds : c.rangeBounds? = some b) :
    c.summary = c.field ++ " " ++ k.symbol ++ " " ++ b.display ↔ c.kind ≠ .date .anniversary := by
  rw [summary_eq_span_iff hspan, comparand_of_spanComparison hspan, hbounds]
  exact and_iff_left rfl

theorem summary_eq_bounds_iff_of_not_rangeBounds {b : Bounds} (hbounds : c.rangeBounds? = none) :
    c.summary = c.field ++ " " ++ k.symbol ++ " " ++ b.display
      ↔ c.kind.dateRule? = none ∧ c.value.display = b.display := by
  rw [summary_eq_span_iff hspan, comparand_of_spanComparison hspan, hbounds, Option.elim_none]
  cases hrule : c.kind.dateRule? with
  | some rule =>
      exact iff_of_false (fun h => b.display_ne_dateRange h.2.symm) fun h => nomatch h.1
  | none =>
      have hkind : c.kind ≠ .date .anniversary := fun h => by simp [h, FieldKind.dateRule?] at hrule
      exact and_congr (iff_of_true hkind rfl) Iff.rfl

end Span

/-! ### Summaries beside clauses -/

/-- A summary says "is anniversary" where the clauses test the day and the month, unless the field is
of that kind but something else is asked of it. The clause of a between operator compares with the
bounds, if there are any, and the summary tells them unless the field is of that kind. Without bounds
the clause compares with the value, and it is the value that the summary tells. -/
theorem summary_tells_clauses (c : Condition) (hknown : c.operator ∈ Operator.known) :
    ((c.summary = c.field ++ " is anniversary"
          ↔ c.clauses c.field
            = [⟨c.field, .occurs .currentDay⟩, ⟨c.field, .occurs .currentMonth⟩])
        ↔ (c.kind = .date .anniversary → c.operator.isUnary = true ∨ c.isAnniversary = true))
      ∧ ∀ k, c.operator.spanComparison? = some k → ∀ b,
          (c.clauses c.field = [⟨c.field, .compare k b.toJson⟩] ↔ c.rangeBounds? = some b)
            ∧ (c.rangeBounds? = some b →
                (c.summary = c.field ++ " " ++ k.symbol ++ " " ++ b.display
                  ↔ c.kind ≠ .date .anniversary))
            ∧ (c.rangeBounds? = none →
                (c.summary = c.field ++ " " ++ k.symbol ++ " " ++ b.display
                  ↔ c.kind.dateRule? = none ∧ c.value.display = b.display)) := by
  refine ⟨?_, fun k hspan b => ⟨clauses_eq_span_iff hspan c.field, summary_eq_bounds_iff hspan,
    summary_eq_bounds_iff_of_not_rangeBounds hspan⟩⟩
  have hkind : c.isAnniversary = true → c.kind = .date .anniversary :=
    fun h => (isAnniversary_iff.1 h).1
  have hbinary : c.isAnniversary = true → c.operator.isUnary = false := fun h => by
    rw [(isAnniversary_iff.1 h).2.1]
    rfl
  rw [summary_eq_anniversary_iff hknown, clauses_eq_dayAndMonth_iff]
  constructor
  · intro h hanniversary
    by_cases hunary : c.operator.isUnary = true
    · exact .inl hunary
    · exact .inr (h.1 ⟨hanniversary, Bool.not_eq_true _ ▸ hunary⟩)
  · intro h
    refine ⟨fun ⟨hanniversary, hunary⟩ => ?_, fun hthis => ⟨hkind hthis, hbinary hthis⟩⟩
    exact (h hanniversary).resolve_left fun htrue => Bool.false_ne_true (hunary.symm.trans htrue)

/-- A date that was entered as a range and then made a date of another kind: the operator and the
bounds are left behind. -/
def createdInFirstQuarter (rule : DateRule) : Condition where
  id := "c1"
  dataSource := none
  collection := none
  field := "created_date"
  kind := .date rule
  operator := .dateBetween
  value := .text ""
  connective := none
  betweenBounds := some ⟨"2024-01-01", "2024-03-31"⟩

theorem summary_tells_specific :
    (createdInFirstQuarter .specific).operator ∈ Operator.known
      ∧ (createdInFirstQuarter .specific).operator.spanComparison? = some .between
      ∧ (createdInFirstQuarter .specific).summary = "created_date between 2024-01-01 - 2024-03-31"
      ∧ (createdInFirstQuarter .specific).clauses "created_date"
          = [⟨"created_date", .compare .between (.arr [.str "2024-01-01", .str "2024-03-31"])⟩] := by
  have hknown : (createdInFirstQuarter .specific).operator ∈ Operator.known := by decide
  obtain ⟨hclauses, hsummary, -⟩ :=
    (summary_tells_clauses _ hknown).2 .between rfl ⟨"2024-01-01", "2024-03-31"⟩
  exact ⟨hknown, rfl, (hsummary rfl).2 (by decide), hclauses.2 rfl⟩

theorem summary_hides_bounds_anniversary :
    (createdInFirstQuarter .anniversary).operator ∈ Operator.known
      ∧ (createdInFirstQuarter .anniversary).summary = "created_date is anniversary"
      ∧ (createdInFirstQuarter .anniversary).clauses "created_date"
          = [⟨"created_date", .compare .between (.arr [.str "2024-01-01", .str "2024-03-31"])⟩] := by
  decide

end Condition

end SegmentFlow
