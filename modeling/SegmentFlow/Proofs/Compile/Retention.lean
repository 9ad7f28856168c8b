import SegmentFlow.Proofs.Compile.ClosedForm
/-!
# What becomes of each condition

A condition on contacts is kept by its clauses in the `where` part of the document, a condition that
compares a sum by its clause in the `having` part, and a condition on the date on which points expire
by its clause in the join of points. The first two parts take the clauses of any number of
conditions, but the join of points is made for one condition, so of several conditions on the date
only the last is kept, and with it those that say the same.
-/

namespace SegmentFlow

namespace Query

/-- The clauses of a part that may be missing. -/
def Filter.clausesOf (part : Option Filter) : List Clause :=
  (part.map Filter.clauses).getD []

theorem Filter.clausesOf_ofClauses? (cs : List Clause) : clausesOf (ofClauses? cs) = cs := by
  cases cs with
  | nil => rfl
  | cons c cs => cases cs <;> rfl

namespace Document

def whereClauses (d : Document) : List Clause :=
  Filter.clausesOf d.query.filter

def havingClauses (d : Document) : List Clause :=
  Filter.clausesOf d.query.having

/-- The clauses of the `where` part of a join. -/
def joinClauses (d : Document) (name : String) : List Clause :=
  Filter.clausesOf ((d.query.joins.get? name).bind JoinEntry.filter)

end Document

end Query

namespace Compile.Assembler

open Query (Clause Document Filter)

variable (a : Assembler)

/-- The document holds what the condition asks for, in the part that its collection leads to. A
condition on a collection that is not queried asks for nothing. -/
def Keeps (d : Document) (c : Condition) : Prop :=
  match a.collectionOf c with
  | .contacts => ∀ p ∈ c.clauses c.field, p ∈ d.whereClauses
  | .orders => c.clause ("SUM(orders." ++ c.field ++ ")") ∈ d.havingClauses
  | .pointHistories =>
    if c.field = "expire_date" then c.clause c.field ∈ d.joinClauses "point_histories"
    else c.clause ("SUM(point_histories." ++ c.field ++ ")") ∈ d.havingClauses
  | _ => True

theorem whereClauses_assemble (cs : List Condition) :
    (a.assemble cs).value.whereClauses
      = a.contactClauses cs ++ [⟨"merchant_id", .equals (.str a.settings.merchantId)⟩] := by
  rw [Document.whereClauses, filter_assemble, whereOf]
  split
  · rename_i hlength
    have hnil : a.contactClauses cs = [] := by simpa using hlength
    rw [hnil]
    rfl
  · split <;> rfl

theorem havingClauses_assemble (cs : List Condition) :
    (a.assemble cs).value.havingClauses = a.sumClauses cs := by
  rw [Document.havingClauses, having_assemble, Filter.clausesOf_ofClauses?]

/-- The join of points holds the clause of the last condition on the date, and no other. -/
theorem joinClauses_assemble (cs : List Condition) :
    (a.assemble cs).value.joinClauses "point_histories"
      = ((a.lastExpiring? cs).map fun d => d.clause d.field).toList := by
  have hget : (a.assemble cs).value.query.joins.get? "point_histories"
      = a.joinOf? cs .pointHistories := by
    rw [joins_assemble_eq_gather]
    exact a.get?_gather cs (k := .pointHistories) rfl
  rw [Document.joinClauses, hget, joinOf?]
  cases a.lastExpiring? cs with
  | some d => rfl
  | none => cases cs.find? fun c => a.collectionOf c = .pointHistories <;> rfl

theorem lastExpiring?_eq_some {cs : List Condition} {d : Condition}
    (hlast : a.lastExpiring? cs = some d) : d ∈ cs ∧ a.asksForExpiring d = true :=
  ⟨List.mem_reverse.1 (List.mem_of_find?_eq_some hlast), List.find?_some hlast⟩

theorem exists_lastExpiring {cs : List Condition} {c : Condition} (hc : c ∈ cs)
    (hexpiring : a.asksForExpiring c = true) : ∃ d, a.lastExpiring? cs = some d := by
  refine Option.isSome_iff_exists.1 ?_
  rw [lastExpiring?, List.find?_isSome]
  exact ⟨c, List.mem_reverse.2 hc, hexpiring⟩

/-- Only a condition on the date on which points expire can be lost, and it is lost exactly if the
last of them says something else. -/
theorem keeps_iff {cs : List Condition} {c : Condition} (hc : c ∈ cs) :
    a.Keeps (a.assemble cs).value c
      ↔ (a.asksForExpiring c = true →
          ∀ d, a.lastExpiring? cs = some d → c.clause c.field = d.clause d.field) := by
  rw [Keeps, whereClauses_assemble, havingClauses_assemble, joinClauses_assemble]
  cases a.routed c with
  | contacts hk =>
      have hmem : ∀ p ∈ c.clauses c.field, p ∈ a.contactClauses cs := fun p hp =>
        List.mem_flatMap.2 ⟨c, List.mem_filter.2 ⟨hc, decide_eq_true hk⟩, hp⟩
      simp only [hk, asksForExpiring, reduceCtorEq, decide_false, Bool.false_and,
        Bool.false_eq_true, false_implies, iff_true]
      exact fun p hp => List.mem_append_left _ (hmem p hp)
  | orders hk =>
      have hsum : a.asksForSum c = true := by simp [asksForSum, hk]
      simp only [hk, asksForExpiring, reduceCtorEq, decide_false, Bool.false_and,
        Bool.false_eq_true, false_implies, iff_true]
      refine List.mem_map.2 ⟨c, List.mem_filter.2 ⟨hc, hsum⟩, ?_⟩
      rw [hk]
      rfl
  | expiring hk hfield =>
      have hexpiring : a.asksForExpiring c = true := by simp [asksForExpiring, hk, hfield]
      obtain ⟨d, hlast⟩ := a.exists_lastExpiring hc hexpiring
      simp only [hk, hfield, hlast, hexpiring, if_true, Option.map_some, Option.toList_some,
        List.mem_singleton, Option.some.injEq, forall_eq', forall_const]
  | points hk hfield =>
      have hsum : a.asksForSum c = true := by simp [asksForSum, hk, hfield]
      simp only [hk, hfield, asksForExpiring, decide_false, Bool.and_false, if_false,
        Bool.false_eq_true, false_implies, iff_true]
      refine List.mem_map.2 ⟨c, List.mem_filter.2 ⟨hc, hsum⟩, ?_⟩
      rw [hk]
      rfl
  | skipped hcontacts horders hpoints =>
      cases hk : a.collectionOf c with
      | contacts => exact absurd hk hcontacts
      | orders => exact absurd hk horders
      | pointHistories => exact absurd hk hpoints
      | products => simp [asksForExpiring, hk]
      | other name => simp [asksForExpiring, hk]

/-- No condition is lost exactly if all conditions on the date on which points expire say the
same. -/
theorem keeps_all_iff (cs : List Condition) :
    (∀ c ∈ cs, a.Keeps (a.assemble cs).value c)
      ↔ ∀ c ∈ cs, ∀ d ∈ cs, a.asksForExpiring c = true → a.asksForExpiring d = true →
          c.clause c.field = d.clause d.field := by
  constructor
  · intro hkeeps c hc d hd hexpiring hexpiring'
    obtain ⟨e, hlast⟩ := a.exists_lastExpiring hc hexpiring
    calc
      c.clause c.field = e.clause e.field := (a.keeps_iff hc).1 (hkeeps c hc) hexpiring e hlast
      _ = d.clause d.field := ((a.keeps_iff hd).1 (hkeeps d hd) hexpiring' e hlast).symm
  · intro hsame c hc
    refine (a.keeps_iff hc).2 fun hexpiring d hlast => ?_
    obtain ⟨hd, hexpiring'⟩ := a.lastExpiring?_eq_some hlast
    exact hsame c hc d hd hexpiring hexpiring'

/-! ### A condition that is lost

Points that expire in the year 2024 take two conditions on the date. The second one takes the place
of the first, which is then in no part of the document. -/

def onExpireDate (operator : Operator) (date : String) : Condition where
  id := date
  dataSource := none
  collection := none
  field := "expire_date"
  kind := .date .specific
  operator := operator
  value := .text date
  connective := none
  betweenBounds := none

def expiringIn2024 : List Condition :=
  [onExpireDate .dateAfter "2023-12-31", onExpireDate .dateBefore "2025-01-01"]

theorem lost_dateAfter :
    standard.collectionOf (onExpireDate .dateAfter "2023-12-31") = .pointHistories
      ∧ (¬ ∀ p ∈ (onExpireDate .dateAfter "2023-12-31").clauses "expire_date",
          p ∈ (standard.assemble expiringIn2024).value.whereClauses)
      ∧ (onExpireDate .dateAfter "2023-12-31").clause "SUM(point_histories.expire_date)"
          ∉ (standard.assemble expiringIn2024).value.havingClauses
      ∧ (onExpireDate .dateAfter "2023-12-31").clause "expire_date"
          ∉ (standard.assemble expiringIn2024).value.joinClauses "point_histories" := by
  decide

end Compile.Assembler

end SegmentFlow
