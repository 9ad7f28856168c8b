import SegmentFlow.Proofs.Compile.Retention
import SegmentFlow.Proofs.Condition.Clauses
/-!
# Where anniversaries are told by day and month

Only the `where` part takes all the clauses of a condition. The `having` part and the join of points
take the one clause that compares, and for an anniversary that is an equality with the word. So the
day and the month are tested for the conditions on contacts, and for no others.
-/

namespace SegmentFlow.Compile

open Query (Clause DatePart Document)

/-- A sum never has the name of the field whose values are put in upper case. -/
theorem sum_ne_gender (name field : String) : "SUM(" ++ name ++ "." ++ field ++ ")" ≠ "gender" := by
  intro h
  have hfirst := congrArg (fun s => s.toList.head?) h
  simp at hfirst

namespace Assembler

variable (a : Assembler)

/-- The part of a document that the collection of a condition leads to. -/
def partOf (d : Document) (c : Condition) : List Clause :=
  match a.collectionOf c with
  | .contacts => d.whereClauses
  | .orders => d.havingClauses
  | .pointHistories =>
    if c.field = "expire_date" then d.joinClauses "point_histories" else d.havingClauses
  | _ => []

/-- What a condition compares: its field, or else the sum of it. -/
def keyOf (c : Condition) : String :=
  if a.asksForSum c then "SUM(" ++ (a.collectionOf c).name ++ "." ++ c.field ++ ")" else c.field

/-- The document tests both the day and the month of what the condition is on. -/
def TestsDayAndMonth (d : Document) (c : Condition) : Prop :=
  ∀ part : DatePart, ⟨a.keyOf c, .occurs part⟩ ∈ a.partOf d c

/-! ### Parts that test no dates -/

section Untested

variable (cs : List Condition) {p : Clause}

theorem predicate_ne_occurs_of_mem_havingClauses
    (hp : p ∈ (a.assemble cs).value.havingClauses) (part : DatePart) :
    p.predicate ≠ .occurs part := by
  rw [havingClauses_assemble] at hp
  obtain ⟨d, -, rfl⟩ := List.mem_map.1 hp
  exact d.predicate_ne_occurs _ part

theorem predicate_ne_occurs_of_mem_joinClauses
    (hp : p ∈ (a.assemble cs).value.joinClauses "point_histories") (part : DatePart) :
    p.predicate ≠ .occurs part := by
  rw [joinClauses_assemble] at hp
  obtain ⟨d, -, rfl⟩ := Option.map_eq_some_iff.1 (Option.mem_toList.1 hp)
  exact d.predicate_ne_occurs _ part

theorem not_testsDayAndMonth {c : Condition} (hk : a.collectionOf c ≠ .contacts) :
    ¬ a.TestsDayAndMonth (a.assemble cs).value c := by
  intro htests
  have hday := htests .currentDay
  rw [partOf] at hday
  cases hcollection : a.collectionOf c with
  | contacts => exact hk hcollection
  | orders =>
      rw [hcollection] at hday
      exact a.predicate_ne_occurs_of_mem_havingClauses cs hday _ rfl
  | pointHistories =>
      simp only [hcollection] at hday
      split at hday
      · exact a.predicate_ne_occurs_of_mem_joinClauses cs hday _ rfl
      · exact a.predicate_ne_occurs_of_mem_havingClauses cs hday _ rfl
  | products | other => simp [hcollection] at hday

end Untested

/-! ### What an anniversary adds

The condition stands somewhere in a list, and what it adds stands at the same place among what the
conditions before it and after it give. -/

section Place

variable (before after : List Condition) {c : Condition}

/-- A condition on contacts adds nothing to the other parts. -/
theorem havingClauses_of_contacts (hk : a.collectionOf c = .contacts) :
    (a.assemble (before ++ c :: after)).value.havingClauses
      = (a.assemble (before ++ after)).value.havingClauses := by
  have hsum : a.asksForSum c = false := by simp [asksForSum, hk]
  rw [havingClauses_assemble, havingClauses_assemble, sumClauses, sumClauses, List.filter_append,
    List.filter_append, List.filter_cons_of_neg (by simp [hsum])]

theorem joinClauses_of_contacts (hk : a.collectionOf c = .contacts) :
    (a.assemble (before ++ c :: after)).value.joinClauses "point_histories"
      = (a.assemble (before ++ after)).value.joinClauses "point_histories" := by
  have hexpiring : a.asksForExpiring c = false := by simp [asksForExpiring, hk]
  have hlast : a.lastExpiring? (before ++ c :: after) = a.lastExpiring? (before ++ after) := by
    simp [lastExpiring?, List.find?_append, hexpiring]
  rw [joinClauses_assemble, joinClauses_assemble, hlast]

section Anniversary

variable (hanniversary : c.isAnniversary = true)
include hanniversary

theorem whereClauses_of_contacts (hk : a.collectionOf c = .contacts) :
    (a.assemble (before ++ c :: after)).value.whereClauses
      = a.contactClauses before
        ++ [⟨c.field, .occurs .currentDay⟩, ⟨c.field, .occurs .currentMonth⟩]
        ++ a.contactClauses after
        ++ [⟨"merchant_id", .equals (.str a.settings.merchantId)⟩] := by
  rw [whereClauses_assemble, ← Condition.clauses_of_isAnniversary hanniversary c.field]
  simp [contactClauses, hk]

theorem testsDayAndMonth_of_contacts (hk : a.collectionOf c = .contacts) :
    a.TestsDayAndMonth (a.assemble (before ++ c :: after)).value c := by
  intro part
  have hkey : a.keyOf c = c.field := by simp [keyOf, asksForSum, hk]
  have hpart : a.partOf (a.assemble (before ++ c :: after)).value c
      = (a.assemble (before ++ c :: after)).value.whereClauses := by rw [partOf, hk]
  rw [hpart, whereClauses_of_contacts a before after hanniversary hk, hkey]
  cases part <;> simp

theorem havingClauses_of_asksForSum (hsum : a.asksForSum c = true) :
    (a.assemble (before ++ c :: after)).value.havingClauses
      = a.sumClauses before
        ++ [⟨"SUM(" ++ (a.collectionOf c).name ++ "." ++ c.field ++ ")",
              .equals (.str "anniversary")⟩]
        ++ a.sumClauses after := by
  have hpredicate := Condition.predicate_of_isAnniversary hanniversary
    (sum_ne_gender (a.collectionOf c).name c.field)
  rw [havingClauses_assemble, ← hpredicate]
  simp [sumClauses, hsum, Condition.clause]

/-- Of several conditions on the date on which points expire only the last is kept. -/
theorem joinClauses_of_asksForExpiring (hexpiring : a.asksForExpiring c = true)
    (hlast : a.lastExpiring? after = none) :
    (a.assemble (before ++ c :: after)).value.joinClauses "point_histories"
      = [⟨"expire_date", .equals (.str "anniversary")⟩] := by
  have hfield : c.field = "expire_date" := by
    simp only [asksForExpiring, Bool.and_eq_true, decide_eq_true_eq] at hexpiring
    exact hexpiring.2
  have hthis : a.lastExpiring? (before ++ c :: after) = some c := by
    rw [lastExpiring?, List.reverse_append, List.reverse_cons, List.append_assoc,
      List.find?_append, ← lastExpiring?, hlast, Option.none_or, List.singleton_append,
      List.find?_cons_of_pos hexpiring]
  rw [joinClauses_assemble, hthis, Option.map_some, Option.toList_some, Condition.clause, hfield,
    Condition.predicate_of_isAnniversary hanniversary (by decide)]

end Anniversary

/-- The day and the month of an anniversary are tested exactly if the condition is on contacts, and
then these two tests are all that it adds. What it adds as a condition on a sum, or on the date on
which points expire, is an equality with the word. -/
theorem testsDayAndMonth_iff_contacts (hanniversary : c.isAnniversary = true) :
    let d := (a.assemble (before ++ c :: after)).value
    let without := (a.assemble (before ++ after)).value
    (a.TestsDayAndMonth d c ↔ a.collectionOf c = .contacts)
      ∧ (a.collectionOf c = .contacts →
          d.whereClauses
              = a.contactClauses before
                ++ [⟨c.field, .occurs .currentDay⟩, ⟨c.field, .occurs .currentMonth⟩]
                ++ a.contactClauses after
                ++ [⟨"merchant_id", .equals (.str a.settings.merchantId)⟩]
            ∧ d.havingClauses = without.havingClauses
            ∧ d.joinClauses "point_histories" = without.joinClauses "point_histories")
      ∧ (a.asksForSum c = true →
          d.havingClauses
            = a.sumClauses before
              ++ [⟨"SUM(" ++ (a.collectionOf c).name ++ "." ++ c.field ++ ")",
                    .equals (.str "anniversary")⟩]
              ++ a.sumClauses after)
      ∧ (a.asksForExpiring c = true → a.lastExpiring? after = none →
          d.joinClauses "point_histories" = [⟨"expire_date", .equals (.str "anniversary")⟩]) := by
  refine ⟨⟨fun htests => ?_, a.testsDayAndMonth_of_contacts before after hanniversary⟩,
    fun hk => ⟨a.whereClauses_of_contacts before after hanniversary hk,
      a.havingClauses_of_contacts before after hk, a.joinClauses_of_contacts before after hk⟩,
    a.havingClauses_of_asksForSum before after hanniversary,
    a.joinClauses_of_asksForExpiring before after hanniversary⟩
  by_contra hk
  exact a.not_testsDayAndMonth _ hk htests

end Place

def anniversaryOf (field : String) : Condition where
  id := field
  dataSource := none
  collection := none
  field := field
  kind := .date .anniversary
  operator := .equals
  value := .text "anniversary"
  connective := none
  betweenBounds := none

/-- A field that no table lists belongs to the contacts. -/
theorem testsDayAndMonth_birthday :
    (anniversaryOf "birthday").isAnniversary = true
      ∧ standard.TestsDayAndMonth
          (standard.assemble [anniversaryOf "order_date", anniversaryOf "birthday"]).value
          (anniversaryOf "birthday") :=
  ⟨by decide, (testsDayAndMonth_iff_contacts standard [anniversaryOf "order_date"] []
    (by decide)).1.2 (by decide)⟩

/-- The dates of orders are summed up, and the sum is compared with the word. -/
theorem comparesWord_orderDate :
    (anniversaryOf "order_date").isAnniversary = true
      ∧ standard.collectionOf (anniversaryOf "order_date") = .orders
      ∧ ¬ standard.TestsDayAndMonth (standard.assemble [anniversaryOf "order_date"]).value
          (anniversaryOf "order_date")
      ∧ (standard.assemble [anniversaryOf "order_date"]).value.whereClauses
          = [⟨"merchant_id", .equals (.str "68468c7bbffca9a0a6b2a413")⟩]
      ∧ (standard.assemble [anniversaryOf "order_date"]).value.havingClauses
          = [⟨"SUM(orders.order_date)", .equals (.str "anniversary")⟩]
      ∧ (standard.assemble [anniversaryOf "order_date"]).value.joinClauses "orders" = [] :=
  ⟨by decide, by decide, standard.not_testsDayAndMonth _ (by decide), by decide, by decide,
    by decide⟩

end Assembler

end SegmentFlow.Compile
