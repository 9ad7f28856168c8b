import SegmentFlow.Proofs.Compile.MerchantLimit
import SegmentFlow.Proofs.Condition.Clauses
import SegmentFlow.Proofs.Query.Legible
/-!
# Compiled queries can be read back

Whatever the conditions, the standard tables lead to a legible query. A clause stands alone only on
the merchant or on a sum, whose name is never `and`. Clauses are merged only in the presence of a
condition on gender, which the standard tables give to the contacts, so one of the two merged clauses
is on gender and the other is on the merchant. The joins are named by the two collections.
-/

namespace SegmentFlow

open Query (Clause CollectionQuery Filter JoinEntry)

/-! ### The clauses of a condition -/

theorem ConditionValue.plain_toTree (v : ConditionValue) : (v.toTree : Json).Plain := by
  cases v <;> exact trivial

theorem ConditionValue.plain_toUppercase (v : ConditionValue) : v.toUppercase.Plain := by
  cases v <;> exact trivial

theorem Bounds.plain_toJson (b : Bounds) : b.toJson.Plain := by
  simp [toJson, Tree.Plain]

namespace Condition

variable {c : Condition} {key : String}

/-- What a condition compares with is never an object. -/
theorem legible_predicate (c : Condition) (key : String) : (c.predicate key).Legible := by
  have hvalue := c.value.plain_toTree
  have huppercase := c.value.plain_toUppercase
  unfold predicate
  cases c.operator with
  | equals => dsimp only; split <;> assumption
  | greaterThan => dsimp only; split <;> assumption
  | contains | notContains | isEmpty | isNotEmpty => exact trivial
  | dateAfter =>
      change Tree.Plain (ite _ _ _)
      split
      · exact trivial
      · exact hvalue
  | dateBetween | dateNotBetween =>
      cases c.rangeBounds? with
      | some b => exact b.plain_toJson
      | none => exact hvalue
  | notEquals | lessThan | greaterEqual | lessEqual | dateBefore | other => exact hvalue

theorem legible_of_mem_clauses {p : Clause} (hp : p ∈ c.clauses key) : p.Legible := by
  rw [clauses] at hp
  split at hp
  · simp only [List.mem_cons, List.not_mem_nil, or_false] at hp
    rcases hp with rfl | rfl <;> exact trivial
  · rw [List.mem_singleton.1 hp]
    exact c.legible_predicate key

end Condition

theorem FieldTables.resolve_standard_gender (named : Option Collection) :
    standard.resolve "gender" named = .contacts := by
  simp [resolve, standard, contactFields]

namespace Compile

theorem sum_ne_and (name field : String) : "SUM(" ++ name ++ "." ++ field ++ ")" ≠ "and" := by
  intro h
  have hlength := congrArg String.length h
  simp only [String.length_append] at hlength
  have hsum : "SUM(".length = 4 := rfl
  have hand : "and".length = 3 := rfl
  omega

namespace Assembler

/-! ### The parts of a document -/

section Parts

variable (a : Assembler) {cs : List Condition} {p : Clause}

theorem legible_of_mem_contactClauses (hp : p ∈ a.contactClauses cs) : p.Legible := by
  obtain ⟨c, -, hc⟩ := List.mem_flatMap.1 hp
  exact Condition.legible_of_mem_clauses hc

theorem legible_of_mem_sumClauses (hp : p ∈ a.sumClauses cs) : p.field ≠ "and" ∧ p.Legible := by
  obtain ⟨c, -, rfl⟩ := List.mem_map.1 hp
  exact ⟨sum_ne_and _ _, c.legible_predicate _⟩

theorem legible_having (cs : List Condition) :
    ∀ f ∈ Filter.ofClauses? (a.sumClauses cs), f.Legible := by
  intro f hf
  have hlegible : ∀ p ∈ a.sumClauses cs, p.field ≠ "and" ∧ p.Legible := fun p hp =>
    a.legible_of_mem_sumClauses hp
  cases hsum : a.sumClauses cs with
  | nil => simp [hsum, Filter.ofClauses?] at hf
  | cons p ps =>
      rw [hsum] at hf hlegible
      cases ps with
      | nil =>
          obtain rfl : Filter.clause p = f := Option.some.inj hf
          exact hlegible p List.mem_cons_self
      | cons q qs =>
          obtain rfl : Filter.and (p :: q :: qs) = f := Option.some.inj hf
          exact fun r hr => (hlegible r hr).2

theorem legible_joinOf? (cs : List Condition) (k : Collection) :
    ∀ entry ∈ a.joinOf? cs k, entry.Legible := by
  have hplain : ∀ (select : List String) (join : String),
      JoinEntry.Legible ⟨select, none, none, none, join⟩ := fun select join =>
    ⟨by simp, by simp⟩
  intro entry hentry
  cases k with
  | orders =>
      obtain ⟨c, -, rfl⟩ := Option.map_eq_some_iff.1 hentry
      exact hplain _ _
  | pointHistories =>
      rcases Option.or_eq_some_iff.1 hentry with hexpiring | ⟨-, hpoints⟩
      · obtain ⟨c, -, rfl⟩ := Option.map_eq_some_iff.1 hexpiring
        refine ⟨?_, ?_⟩
        · rintro f ⟨⟩
          exact List.forall_mem_singleton.2 (c.legible_predicate c.field)
        · rintro f ⟨⟩
          exact ⟨by decide, trivial⟩
      · obtain ⟨c, -, rfl⟩ := Option.map_eq_some_iff.1 hpoints
        exact hplain _ _
  | contacts | products | other => cases hentry

end Parts

/-! ### The whole document -/

/-- An assembler with the standard tables, for any merchant and key column. -/
def withStandardTables (settings : Settings) : Assembler where
  settings := settings
  resolve := FieldTables.standard.resolve

variable (settings : Settings)

theorem collectionOf_of_gender {c : Condition} (hgender : c.field = "gender") :
    (withStandardTables settings).collectionOf c = .contacts := by
  rw [collectionOf, hgender]
  exact FieldTables.resolve_standard_gender c.collection

/-- If there is but one clause on contacts and a condition is on gender, then so is the clause. -/
theorem contactClauses_of_gender {cs : List Condition}
    (hone : ((withStandardTables settings).contactClauses cs).length = 1)
    (hgender : ∃ c ∈ cs, c.field = "gender") :
    ∃ p, (withStandardTables settings).contactClauses cs = [p] ∧ p.field = "gender" := by
  obtain ⟨p, hp⟩ := List.length_eq_one_iff.1 hone
  obtain ⟨c, hc, hfield⟩ := hgender
  have hcontacts := collectionOf_of_gender settings hfield
  obtain ⟨q, hq⟩ := List.exists_mem_of_ne_nil _ (c.clauses_ne_nil c.field)
  have hmem : q ∈ (withStandardTables settings).contactClauses cs :=
    List.mem_flatMap.2 ⟨c, List.mem_filter.2 ⟨hc, decide_eq_true hcontacts⟩, hq⟩
  rw [hp, List.mem_singleton] at hmem
  exact ⟨p, hp, by rw [← hmem, Condition.field_of_mem_clauses hq, hfield]⟩

theorem legible_whereOf (cs : List Condition) :
    ((withStandardTables settings).whereOf cs).Legible := by
  have hclauses : ∀ p ∈ (withStandardTables settings).contactClauses cs
      ++ [⟨"merchant_id", .equals (.str settings.merchantId)⟩], p.Legible := by
    rw [List.forall_mem_append]
    exact ⟨fun p hp => legible_of_mem_contactClauses _ hp, List.forall_mem_singleton.2 trivial⟩
  rw [whereOf]
  split
  · exact ⟨show "merchant_id" ≠ "and" by decide, trivial⟩
  · split
    · -- The condition on gender gives the clause that is merged with the limit to the merchant.
      rename_i hmerged
      obtain ⟨htwo, hgender, -⟩ := hmerged
      have hone : ((withStandardTables settings).contactClauses cs).length = 1 := by
        simpa using htwo
      obtain ⟨p, hp, hfield⟩ := contactClauses_of_gender settings hone hgender
      refine ⟨Nat.le_of_eq htwo.symm, ?_, hclauses⟩
      rw [hp, List.singleton_append, List.map_cons, hfield]
      change ["gender", "merchant_id"].Nodup
      decide
    · exact hclauses

theorem legible_assemble (cs : List Condition) :
    ((withStandardTables settings).assemble cs).value.query.Legible where
  filter := by
    rw [filter_assemble]
    rintro f ⟨⟩
    exact legible_whereOf settings cs
  having := by
    rw [having_assemble]
    exact legible_having _ cs
  joins := by
    rw [joins_assemble]
    intro e he
    obtain ⟨k, -, hk⟩ := List.mem_filterMap.1 he
    obtain ⟨entry, hentry, rfl⟩ := Option.map_eq_some_iff.1 hk
    exact legible_joinOf? _ cs k entry hentry
  nodup := by
    rw [joins_assemble_eq_gather]
    exact nodup_names_gather _ cs
  names := by
    intro n hn hjoin
    rcases mem_names_joins_assemble _ hjoin with rfl | rfl <;> exact absurd hn (by decide)

/-- A compiled query is written without repeated members, and two compiled queries are written alike
only if they are the same. -/
theorem toJson_assemble_unambiguous (settings' : Settings) (cs cs' : List Condition) :
    ((withStandardTables settings).assemble cs).value.toJson.NoRepeats
      ∧ ((withStandardTables settings').assemble cs').value.toJson.NoRepeats
      ∧ (((withStandardTables settings).assemble cs).value.toJson
            = ((withStandardTables settings').assemble cs').value.toJson
          ↔ ((withStandardTables settings).assemble cs).value
            = ((withStandardTables settings').assemble cs').value) := by
  have hlegible := legible_assemble settings cs
  have hlegible' := legible_assemble settings' cs'
  exact ⟨Query.Document.noRepeats_toJson hlegible, Query.Document.noRepeats_toJson hlegible',
    Query.Document.toJson_inj hlegible hlegible'⟩

end Assembler

end Compile

end SegmentFlow
