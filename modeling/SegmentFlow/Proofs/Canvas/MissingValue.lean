import Mathlib.Logic.Basic
import Mathlib.Tactic.ByContra
import SegmentFlow.Proofs.Canvas.Issues
import SegmentFlow.Proofs.Condition.Clauses
import SegmentFlow.Proofs.Numeral
/-!
# Which missing values matter

A report asks for a value by the operator alone: every operator needs one that does not test whether
there is any. The clauses of a condition with an empty value compare with the empty text just there,
but for the between operators, which do not look at the value when there are bounds. So the report
never lets an empty comparison through, and it asks for a value that nothing uses where a between
operator has its bounds.
-/

namespace SegmentFlow

/-! ### Comparing with the empty text -/

/-- What the field is compared with. -/
def Query.Predicate.operand? : Predicate → Option Json
  | .equals value => some value
  | .compare _ operand => some operand
  | .occurs _ => none

namespace Condition

variable {c : Condition}

/-- A clause compares with the empty text, or with the pattern that is made of it. -/
def ComparesBlank (c : Condition) : Prop :=
  ∃ p ∈ c.clauses c.field,
    p.predicate.operand? = some (.str "") ∨ p.predicate.operand? = some (.str "%%")

/-- The condition compares with its bounds, whatever its value. -/
def ComparesBounds (c : Condition) : Prop :=
  c.isBetween = true ∧ c.rangeBounds?.isSome = true

/-- The condition compares with its value. -/
def UsesValue (c : Condition) : Prop :=
  c.operator.isUnary = false ∧ ¬ c.ComparesBounds

theorem operand?_predicate (huses : c.UsesValue) (key : String) :
    (c.predicate key).operand? = some c.value.toTree
      ∨ (c.predicate key).operand? = some c.value.toUppercase
      ∨ (c.predicate key).operand? = some c.value.likePattern
      ∨ c.value = .text "today" := by
  obtain ⟨hbinary, hbounds⟩ := huses
  by_cases hbetween : c.isBetween = true
  · obtain ⟨k, hspan⟩ := isBetween_iff_spanComparison.1 hbetween
    have hnone : c.rangeBounds? = none := by simpa [ComparesBounds, hbetween] using hbounds
    rcases predicate_of_not_rangeBounds hspan key hnone with heq | heq <;>
      exact .inl (by rw [heq]; rfl)
  · rw [isBetween_iff, not_or] at hbetween
    rw [predicate]
    cases hop : c.operator with
    | equals =>
        by_cases hgender : key = genderField
        · exact .inr (.inl (congrArg some (if_pos hgender)))
        · exact .inl (congrArg some (if_neg hgender))
    | greaterThan =>
        dsimp only
        split
        · exact .inr (.inl rfl)
        · exact .inl rfl
    | contains | notContains => exact .inr (.inr (.inl rfl))
    | dateAfter =>
        by_cases htoday : c.value = .text "today"
        · exact .inr (.inr (.inr htoday))
        · exact .inl (congrArg some (if_neg htoday))
    | dateBetween => exact absurd hop hbetween.1
    | dateNotBetween => exact absurd hop hbetween.2
    | isEmpty | isNotEmpty => simp [hop, Operator.isUnary] at hbinary
    | notEquals | lessThan | greaterEqual | lessEqual | dateBefore | other => exact .inl rfl

section Unused

variable (hunused : ¬ c.UsesValue)
include hunused

theorem unary_or_comparesBounds : c.operator.isUnary = true ∨ c.ComparesBounds := by
  rwa [UsesValue, not_and_or, Bool.not_eq_false, not_not] at hunused

theorem operand?_of_not_usesValue (key : String) :
    (c.predicate key).operand? = some .null
      ∨ ∃ b : Bounds, (c.predicate key).operand? = some b.toJson := by
  rcases unary_or_comparesBounds hunused with hunary | ⟨hbetween, hsome⟩
  · left
    rcases Operator.isUnary_iff.1 hunary with hop | hop <;> rw [predicate, hop] <;> rfl
  · obtain ⟨k, hspan⟩ := isBetween_iff_spanComparison.1 hbetween
    obtain ⟨b, hb⟩ := Option.isSome_iff_exists.1 hsome
    exact .inr ⟨b, by rw [predicate_of_rangeBounds hspan key hb]; rfl⟩

/-- Another value makes no difference. -/
theorem clauses_eq_of_not_usesValue (v : ConditionValue) (key : String) :
    ({ c with value := v } : Condition).clauses key = c.clauses key := by
  rcases unary_or_comparesBounds hunused with hunary | ⟨hbetween, hsome⟩
  · rcases Operator.isUnary_iff.1 hunary with hop | hop <;>
      simp [clauses, isAnniversary, clause, predicate, hop]
  · obtain ⟨k, hspan⟩ := isBetween_iff_spanComparison.1 hbetween
    obtain ⟨b, hb⟩ := Option.isSome_iff_exists.1 hsome
    rw [(clauses_eq_span_iff hspan key).2 hb]
    exact (clauses_eq_span_iff (c := { c with value := v }) hspan key).2 hb

end Unused

theorem comparesBlank_iff_operand? (hplain : c.isAnniversary = false) :
    c.ComparesBlank
      ↔ (c.predicate c.field).operand? = some (.str "")
        ∨ (c.predicate c.field).operand? = some (.str "%%") := by
  simp only [ComparesBlank, clauses_of_not_isAnniversary hplain, List.mem_singleton, exists_eq_left,
    clause]

theorem isAnniversary_of_blank (hblank : c.value = .text "") : c.isAnniversary = false := by
  simp [isAnniversary, hblank]

theorem comparesBlank_iff_usesValue (hblank : c.value = .text "") :
    c.ComparesBlank ↔ c.UsesValue := by
  rw [comparesBlank_iff_operand? (isAnniversary_of_blank hblank)]
  constructor
  · intro hoperand
    by_contra hunused
    rcases operand?_of_not_usesValue hunused c.field with hnull | ⟨b, hbounds⟩
    · simp [hnull] at hoperand
    · simp [hbounds, Bounds.toJson] at hoperand
  · intro huses
    rcases operand?_predicate huses c.field with h | h | h | h
    · exact .inl (by rw [h, hblank]; rfl)
    · exact .inl (by rw [h, hblank]; rfl)
    · exact .inr (by rw [h, hblank]; rfl)
    · exact absurd (hblank.symm.trans h) (by decide)

/-- The empty text comes from the value: with another value the clauses are others. -/
theorem usesValue_iff_clauses_ne (hblank : c.value = .text "") :
    c.UsesValue
      ↔ ∃ v, ({ c with value := v } : Condition).clauses c.field ≠ c.clauses c.field := by
  constructor
  · intro huses
    refine ⟨.number (.integer 0), fun heq => ?_⟩
    have hblank' : ({ c with value := .number (.integer 0) } : Condition).ComparesBlank := by
      rw [ComparesBlank, heq]
      exact (comparesBlank_iff_usesValue hblank).2 huses
    rw [comparesBlank_iff_operand? (by simp [isAnniversary])] at hblank'
    rcases operand?_predicate (c := { c with value := .number (.integer 0) }) huses c.field
      with h | h | h | h
    · simp [h, ConditionValue.toTree] at hblank'
    · simp [h, ConditionValue.toUppercase] at hblank'
    · have hpattern : (ConditionValue.number (.integer 0)).likePattern = .str "%0%" := by decide
      simp [h, hpattern] at hblank'
    · cases h
  · rintro ⟨v, hne⟩
    by_contra hunused
    exact hne (clauses_eq_of_not_usesValue hunused v c.field)

end Condition

/-! ### Asking for a value -/

namespace Node

variable {n : Node} {place place' : Nat} {what what' : String} {c : Condition} {i : Issue}

/-- The error that the condition at a place lacks something. -/
def lacks (n : Node) (place : Nat) (what : String) : Issue :=
  ⟨"Condition " ++ toString place ++ " in \"" ++ n.label ++ "\" must specify " ++ what, .error,
    some n.id⟩

/-- The error that a condition has no value for its operator. -/
def lacksValue (n : Node) (place : Nat) (c : Condition) : Issue :=
  n.lacks place ("a value for operator \"" ++ c.operator.name ++ "\"")

theorem lacks_inj : n.lacks place what = n.lacks place' what' ↔ place = place' ∧ what = what' := by
  have hin (rest : String) : ∀ x ∈ (" in \"" ++ rest).toList.head?, x.isDigit = false := by
    simp
  rw [lacks, lacks, Issue.mk.injEq, and_iff_left ⟨rfl, rfl⟩]
  simp only [String.append_assoc, String.append_right_inj, toString_append_inj (hin _) (hin _)]

theorem lacks_ne_node {label rest : String} {severity : Severity} {nodeId : Option String} :
    n.lacks place what
      ≠ ⟨"Condition node \"" ++ label ++ "\"" ++ rest, severity, nodeId⟩ := by
  intro heq
  have hmessage := (Issue.mk.injEq .. ▸ heq).1
  have hnode : "Condition node \"" = "Condition " ++ "node \"" := rfl
  simp only [hnode, String.append_assoc, String.append_right_inj] at hmessage
  exact toString_append_ne (by simp) hmessage

theorem lacksValue_ne_lacks (hwhat : what = "a data source" ∨ what = "a field") :
    n.lacksValue place c ≠ n.lacks place' what := by
  intro heq
  have hletters := congrArg (fun s => s.toList[2]?) (lacks_inj.1 heq).2
  rcases hwhat with rfl | rfl <;> simp at hletters

theorem mem_conditionIssues : i ∈ n.conditionIssues place c
    ↔ isMissing c.dataSource = true ∧ i = n.lacks place "a data source"
      ∨ c.field = "" ∧ i = n.lacks place "a field"
      ∨ (c.operator.isUnary = false ∧ c.value = .text "") ∧ i = n.lacksValue place c := by
  simp only [conditionIssues, List.mem_append, mem_issueIf, or_assoc, Bool.and_eq_true,
    Bool.not_eq_true', decide_eq_true_eq, ConditionValue.isBlank]
  rfl

end Node

namespace Graph

variable {g : Graph} {n : Node} {i : Nat} {c : Condition}

/-- Nothing but the check for a value gives this error, and it does so at one place only. -/
theorem lacksValue_mem_iff (hc : n.data.conditions[i]? = some c) :
    n.lacksValue (i + 1) c ∈ g.conditionNodeIssues n
      ↔ c.operator.isUnary = false ∧ c.value = .text "" := by
  have hplaces (c' : Condition) (place : Nat) :
      (c', place) ∈ n.data.conditions.zipIdx 1
        ↔ 1 ≤ place ∧ n.data.conditions[place - 1]? = some c' :=
    List.mk_mem_zipIdx_iff_le_and_getElem?_sub
  simp only [conditionNodeIssues, List.mem_append, mem_issueIf, List.mem_flatMap]
  constructor
  · rintro (((⟨-, hyes⟩ | ⟨-, hno⟩) | ⟨-, hempty⟩) | ⟨⟨c', place⟩, hplace, hmem⟩)
    · exact absurd hyes Node.lacks_ne_node
    · exact absurd hno Node.lacks_ne_node
    · exact absurd hempty Node.lacks_ne_node
    · rcases Node.mem_conditionIssues.1 hmem with ⟨-, h⟩ | ⟨-, h⟩ | ⟨hvalue, h⟩
      · exact absurd h (Node.lacksValue_ne_lacks (.inl rfl))
      · exact absurd h (Node.lacksValue_ne_lacks (.inr rfl))
      · obtain rfl : i + 1 = place := (Node.lacks_inj.1 h).1
        have hc' : n.data.conditions[i]? = some c' := ((hplaces c' (i + 1)).1 hplace).2
        obtain rfl : c = c' := Option.some.inj (hc.symm.trans hc')
        exact hvalue
  · intro hvalue
    exact .inr ⟨(c, i + 1), (hplaces c (i + 1)).2 ⟨by omega, hc⟩,
      Node.mem_conditionIssues.2 (.inr (.inr ⟨hvalue, rfl⟩))⟩

/-- A condition with an empty value is asked for one exactly if its clauses compare with the empty
text, which then comes from the value, or if they compare with bounds and do without the value. -/
theorem lacksValue_mem_iff_compares (g : Graph) (n : Node) {i : Nat} {c : Condition}
    (hc : n.data.conditions[i]? = some c) (hblank : c.value = .text "") :
    (n.lacksValue (i + 1) c ∈ g.conditionNodeIssues n ↔ c.ComparesBlank ∨ c.ComparesBounds)
      ∧ (c.ComparesBlank
          ↔ ∃ v, ({ c with value := v } : Condition).clauses c.field ≠ c.clauses c.field)
      ∧ (c.ComparesBounds → ¬ c.ComparesBlank) := by
  rw [lacksValue_mem_iff hc, Condition.comparesBlank_iff_usesValue hblank]
  have hbinary : c.ComparesBounds → c.operator.isUnary = false := by
    rintro ⟨hbetween, -⟩
    rcases Condition.isBetween_iff.1 hbetween with hop | hop <;> rw [hop] <;> rfl
  refine ⟨?_, Condition.usesValue_iff_clauses_ne hblank, fun hbounds huses => huses.2 hbounds⟩
  constructor
  · rintro ⟨hunary, -⟩
    by_cases hbounds : c.ComparesBounds
    · exact .inr hbounds
    · exact .inl ⟨hunary, hbounds⟩
  · rintro (huses | hbounds)
    · exact ⟨huses.1, hblank⟩
    · exact ⟨hbinary hbounds, hblank⟩

def blankStatus : Condition :=
  ⟨"c1", some "CRM", none, "status", .text, .equals, .text "", none, none⟩

/-- As it is entered: a range of dates has no value of its own. -/
def registeredInFirstHalf : Condition :=
  ⟨"c1", some "CRM", none, "created_date", .date (.range ⟨"2024-01-01", "2024-06-30"⟩), .dateBetween,
    .text "", none, none⟩

def checking (c : Condition) : Node :=
  (Node.fresh "check" .condition ⟨.ofNat 100, .ofNat 0⟩).withConditions [c]

theorem lacksValue_blankStatus :
    (checking blankStatus).data.conditions[0]? = some blankStatus ∧ blankStatus.value = .text ""
      ∧ blankStatus.clauses "status" = [⟨"status", .equals (.str "")⟩]
      ∧ (checking blankStatus).lacksValue 1 blankStatus
          ∈ (⟨[checking blankStatus], []⟩ : Graph).conditionNodeIssues (checking blankStatus) := by
  have hclauses : blankStatus.clauses "status" = [⟨"status", .equals (.str "")⟩] := by decide
  have hcompares : blankStatus.ComparesBlank := ⟨_, hclauses ▸ List.mem_cons_self, .inl rfl⟩
  have hasked := (lacksValue_mem_iff_compares ⟨[checking blankStatus], []⟩ (checking blankStatus)
    (i := 0) (c := blankStatus) rfl rfl).1
  exact ⟨rfl, rfl, hclauses, hasked.2 (.inl hcompares)⟩

/-- The value is asked for, though the clause does without it. -/
theorem lacksValue_registeredInFirstHalf :
    (checking registeredInFirstHalf).data.conditions[0]? = some registeredInFirstHalf
      ∧ registeredInFirstHalf.value = .text ""
      ∧ (checking registeredInFirstHalf).lacksValue 1 registeredInFirstHalf
          ∈ (⟨[checking registeredInFirstHalf], []⟩ : Graph).conditionNodeIssues
              (checking registeredInFirstHalf)
      ∧ registeredInFirstHalf.clauses "created_date"
          = [⟨"created_date", .compare .between (.arr [.str "2024-01-01", .str "2024-06-30"])⟩]
      ∧ ¬ registeredInFirstHalf.ComparesBlank := by
  refine ⟨rfl, rfl, (lacksValue_mem_iff rfl).2 ⟨rfl, rfl⟩, by decide, fun hcompares => ?_⟩
  exact ((Condition.comparesBlank_iff_usesValue rfl).1 hcompares).2 ⟨rfl, rfl⟩

end Graph

end SegmentFlow
