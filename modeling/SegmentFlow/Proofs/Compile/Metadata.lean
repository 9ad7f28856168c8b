import SegmentFlow.Proofs.Compile.ClosedForm
import SegmentFlow.Proofs.Condition.Clauses
/-!
# What no query depends on

A condition carries more than its query needs: an id, a data source, how it is joined to the one
before it, the options of a selection, the period of a relative date. The document stays the same if
all of that is struck out of every condition, so two lists of conditions lead to one document as soon
as nothing is left in which they differ.
-/

namespace SegmentFlow

namespace Condition

/-- The two conditions ask for the same, whatever else they say. -/
structure AsksSame (c c' : Condition) : Prop where
  field : c.field = c'.field
  collection : c.collection = c'.collection
  operator : c.operator = c'.operator
  value : c.value = c'.value
  rangeBounds : c.rangeBounds? = c'.rangeBounds?
  anniversary : c.kind = .date .anniversary ↔ c'.kind = .date .anniversary

/-- The condition with nothing but what it asks for. -/
def bare (c : Condition) : Condition where
  id := ""
  dataSource := none
  collection := c.collection
  field := c.field
  kind := if c.kind = .date .anniversary then .date .anniversary else .text
  operator := c.operator
  value := c.value
  connective := none
  betweenBounds := c.rangeBounds?

section AsksSame

variable {c c' : Condition} (h : c.AsksSame c') (key : String)
include h

theorem AsksSame.bare_eq : c.bare = c'.bare := by
  simp only [bare, h.field, h.collection, h.operator, h.value, h.rangeBounds, h.anniversary]

theorem AsksSame.clause_eq : c.clause key = c'.clause key := by
  rw [clause, clause, predicate_congr h.operator h.value fun _ => h.rangeBounds]

theorem AsksSame.clauses_eq : c.clauses key = c'.clauses key :=
  clauses_congr h.operator h.value h.anniversary (fun _ => h.rangeBounds) key

end AsksSame

theorem anniversary_bare_iff (c : Condition) :
    c.bare.kind = .date .anniversary ↔ c.kind = .date .anniversary := by
  rw [bare]
  split
  · next hkind => exact iff_of_true rfl hkind
  · next hkind => exact iff_of_false nofun hkind

/-- A bare condition has no range of dates, so that its bounds stand beside its kind. -/
theorem rangeBounds?_bare (c : Condition) : c.bare.rangeBounds? = c.rangeBounds? := by
  have hnone : c.bare.kind.dateRule?.bind DateRule.bounds? = none := by
    rw [bare]
    dsimp only
    split <;> rfl
  rw [rangeBounds?, hnone, Option.none_or]
  rfl

theorem asksSame_bare (c : Condition) : c.bare.AsksSame c :=
  ⟨rfl, rfl, rfl, rfl, c.rangeBounds?_bare, c.anniversary_bare_iff⟩

end Condition

namespace Compile.Assembler

open Query (Document)

variable (a : Assembler) (cs : List Condition)

/-! ### The parts of the document

Every choice that is made about a condition is made by its collection and its field, and both are
left in the bare condition. -/

theorem contactClauses_map_bare :
    a.contactClauses (cs.map Condition.bare) = a.contactClauses cs := by
  rw [contactClauses, List.filter_map, List.flatMap_map]
  exact List.flatMap_congr fun c _ => c.asksSame_bare.clauses_eq c.field

theorem sumClauses_map_bare : a.sumClauses (cs.map Condition.bare) = a.sumClauses cs := by
  rw [sumClauses, List.filter_map, List.map_map]
  exact List.map_congr_left fun c _ => c.asksSame_bare.clause_eq _

theorem joinedCollections_map_bare :
    a.joinedCollections (cs.map Condition.bare) = a.joinedCollections cs := by
  rw [joinedCollections, List.map_map]
  rfl

theorem lastExpiring?_map_bare :
    a.lastExpiring? (cs.map Condition.bare) = (a.lastExpiring? cs).map Condition.bare := by
  rw [lastExpiring?, ← List.map_reverse, List.find?_map]
  rfl

theorem expiringJoin_bare (c : Condition) : a.expiringJoin c.bare = a.expiringJoin c := by
  rw [expiringJoin, expiringJoin, c.asksSame_bare.clause_eq]
  rfl

theorem joinOf?_map_bare (k : Collection) :
    a.joinOf? (cs.map Condition.bare) k = a.joinOf? cs k := by
  cases k with
  | orders =>
      rw [joinOf?_orders, joinOf?_orders, List.find?_map, Option.map_map]
      rfl
  | pointHistories =>
      have hexpiring : a.expiringJoin ∘ Condition.bare = a.expiringJoin :=
        funext a.expiringJoin_bare
      rw [joinOf?_pointHistories, joinOf?_pointHistories, lastExpiring?_map_bare, Option.map_map,
        hexpiring, List.find?_map, Option.map_map]
      rfl
  | contacts | products | other => rfl

theorem joinEntries_map_bare : a.joinEntries (cs.map Condition.bare) = a.joinEntries cs := by
  rw [joinEntries, joinEntries, joinedCollections_map_bare]
  exact List.filterMap_congr fun k _ => congrArg _ (a.joinOf?_map_bare cs k)

theorem whereOf_map_bare : a.whereOf (cs.map Condition.bare) = a.whereOf cs := by
  have hexists (p : Condition → Prop) : (∃ c ∈ cs.map Condition.bare, p c) ↔ ∃ c ∈ cs, p c.bare := by
    simp
  simp only [whereOf, contactClauses_map_bare, hexists]
  rfl

theorem assemble_map_bare :
    (a.assemble (cs.map Condition.bare)).value = (a.assemble cs).value := by
  rw [assemble_eq_documentOf, assemble_eq_documentOf, documentOf, documentOf, havingOf, havingOf,
    whereOf_map_bare, sumClauses_map_bare, joinEntries_map_bare]

/-! ### Lists that ask for the same -/

variable {cs} {cs' : List Condition}

theorem map_bare_eq (h : List.Forall₂ Condition.AsksSame cs cs') :
    cs.map Condition.bare = cs'.map Condition.bare := by
  induction h with
  | nil => rfl
  | cons hc _ ih => rw [List.map_cons, List.map_cons, hc.bare_eq, ih]

/-- Conditions that ask for the same one by one lead to the same document. -/
theorem assemble_eq_of_asksSame (h : List.Forall₂ Condition.AsksSame cs cs') :
    (a.assemble cs).value = (a.assemble cs').value := by
  rw [← a.assemble_map_bare cs, map_bare_eq h, a.assemble_map_bare cs']

/-- Registered in the first half of a year, and ordering since. -/
def registeredThenOrdering : List Condition :=
  [⟨"c1", some "CRM", none, "created_date", .date (.range ⟨"2024-01-01", "2024-06-30"⟩), .dateBetween,
      .text "", none, none⟩,
    ⟨"c2", some "CRM", some .orders, "order_date", .date (.relative 3 .months), .dateAfter,
      .text "today", some .and, none⟩]

/-- The same with other ids, sources, connectives and kinds of field, the range being kept beside a
selection. -/
def registeredThenOrdering' : List Condition :=
  [⟨"x", none, none, "created_date", .select ["2024"], .dateBetween, .text "", some .or,
      some ⟨"2024-01-01", "2024-06-30"⟩⟩,
    ⟨"y", some "shop", some .orders, "order_date", .date .today, .dateAfter, .text "today", some .or,
      none⟩]

theorem assemble_eq_registeredThenOrdering :
    List.Forall₂ Condition.AsksSame registeredThenOrdering registeredThenOrdering'
      ∧ registeredThenOrdering ≠ registeredThenOrdering'
      ∧ (standard.assemble registeredThenOrdering).value
          = (standard.assemble registeredThenOrdering').value := by
  have hsame : List.Forall₂ Condition.AsksSame registeredThenOrdering registeredThenOrdering' :=
    .cons ⟨rfl, rfl, rfl, rfl, by decide, by decide⟩
      (.cons ⟨rfl, rfl, rfl, rfl, by decide, by decide⟩ .nil)
  exact ⟨hsame, by decide, assemble_eq_of_asksSame standard hsame⟩

end Compile.Assembler

end SegmentFlow
