import SegmentFlow.Proofs.Compile.FlatMerge
/-!
# What skipped conditions leave behind

A condition on a collection that is not queried adds no clause and no join, so that a list of
conditions and the list without those that are skipped lead to the same clauses and the same joins.
Only the form of the `where` part looks at the whole list: it asks for a condition on gender, and a
skipped one will do. That shows where one clause on contacts stands beside a join of points.
-/

namespace SegmentFlow.Compile.Assembler

open Query (Clause Document Filter)

variable (a : Assembler)

/-- The condition belongs to a collection that queries are made for. -/
def isQueried (c : Condition) : Bool :=
  a.collectionOf c = .contacts || (a.collectionOf c).isJoined

def queried (cs : List Condition) : List Condition :=
  cs.filter a.isQueried

/-! ### Parts that look at queried conditions only -/

section Parts

variable {p : Condition → Bool} (hp : ∀ c, p c = true → a.isQueried c = true)
include hp

theorem filter_queried (cs : List Condition) : (a.queried cs).filter p = cs.filter p := by
  rw [queried, List.filter_filter]
  refine List.filter_congr fun c _ => ?_
  cases hc : p c with
  | false => rfl
  | true => rw [hp c hc, Bool.and_self]

theorem find?_queried (cs : List Condition) : (a.queried cs).find? p = cs.find? p := by
  rw [← List.head?_filter, ← List.head?_filter, filter_queried a hp]

theorem exists_queried_iff (cs : List Condition) :
    (∃ c ∈ a.queried cs, p c = true) ↔ ∃ c ∈ cs, p c = true := by
  constructor
  · rintro ⟨c, hc, hpc⟩
    exact ⟨c, List.mem_of_mem_filter hc, hpc⟩
  · rintro ⟨c, hc, hpc⟩
    exact ⟨c, List.mem_filter.2 ⟨hc, hp c hpc⟩, hpc⟩

end Parts

variable (cs : List Condition)

theorem isQueried_of_collectionOf {k : Collection} (hk : k = .contacts ∨ k.isJoined = true)
    (c : Condition) (hc : decide (a.collectionOf c = k) = true) : a.isQueried c = true := by
  obtain rfl := of_decide_eq_true hc
  simpa [isQueried] using hk

theorem contactClauses_queried : a.contactClauses (a.queried cs) = a.contactClauses cs := by
  rw [contactClauses, contactClauses, filter_queried a (isQueried_of_collectionOf a (.inl rfl))]

theorem sumClauses_queried : a.sumClauses (a.queried cs) = a.sumClauses cs := by
  have hsum : ∀ c, a.asksForSum c = true → a.isQueried c = true := by
    intro c hc
    simp only [asksForSum, Bool.or_eq_true, Bool.and_eq_true, decide_eq_true_eq] at hc
    rcases hc with hk | ⟨hk, -⟩ <;> simp [isQueried, hk, Collection.isJoined]
  rw [sumClauses, sumClauses, filter_queried a hsum]

theorem joinedCollections_queried : a.joinedCollections (a.queried cs) = a.joinedCollections cs := by
  have hjoined : ∀ c, (Collection.isJoined ∘ a.collectionOf) c = true → a.isQueried c = true := by
    intro c hc
    have hk : (a.collectionOf c).isJoined = true := hc
    rw [isQueried, hk, Bool.or_true]
  rw [joinedCollections, joinedCollections, List.filter_map, List.filter_map,
    filter_queried a hjoined]

theorem lastExpiring?_queried : a.lastExpiring? (a.queried cs) = a.lastExpiring? cs := by
  have hexpiring : ∀ c, a.asksForExpiring c = true → a.isQueried c = true := by
    intro c hc
    simp only [asksForExpiring, Bool.and_eq_true, decide_eq_true_eq] at hc
    simp [isQueried, hc.1, Collection.isJoined]
  have hreverse : (a.queried cs).reverse = a.queried cs.reverse := List.filter_reverse.symm
  rw [lastExpiring?, lastExpiring?, hreverse, find?_queried a hexpiring]

theorem joinOf?_queried (k : Collection) : a.joinOf? (a.queried cs) k = a.joinOf? cs k := by
  cases k with
  | orders =>
      rw [joinOf?_orders, joinOf?_orders,
        find?_queried a (isQueried_of_collectionOf a (.inr rfl))]
  | pointHistories =>
      rw [joinOf?_pointHistories, joinOf?_pointHistories, lastExpiring?_queried,
        find?_queried a (isQueried_of_collectionOf a (.inr rfl))]
  | contacts | products | other => rfl

theorem joinEntries_queried : a.joinEntries (a.queried cs) = a.joinEntries cs := by
  rw [joinEntries, joinEntries, joinedCollections_queried]
  exact List.filterMap_congr fun k _ => congrArg _ (a.joinOf?_queried cs k)

/-! ### The form of the `where` part -/

/-- All conditions on gender are skipped, and still there is one that has the single clause on
contacts merged with the limit to the merchant. -/
structure MergesForSkipped : Prop where
  one : (a.contactClauses cs).length = 1
  gender : ∃ c ∈ cs, c.field = "gender"
  skipped : ∀ c ∈ cs, c.field = "gender" → a.isQueried c = false
  points : ∃ c ∈ cs, a.collectionOf c = .pointHistories

theorem joinsPoints_queried_iff : (∃ c ∈ a.queried cs, a.collectionOf c = .pointHistories)
    ↔ ∃ c ∈ cs, a.collectionOf c = .pointHistories := by
  simpa using a.exists_queried_iff (isQueried_of_collectionOf a (.inr rfl)) cs

theorem MergesWhere.of_queried {cs : List Condition} (h : a.MergesWhere (a.queried cs)) :
    a.MergesWhere cs := by
  obtain ⟨hone, ⟨c, hc, hgender⟩, hpoints⟩ := h
  rw [contactClauses_queried] at hone
  exact ⟨hone, ⟨c, List.mem_of_mem_filter hc, hgender⟩, (a.joinsPoints_queried_iff cs).1 hpoints⟩

theorem mergesForSkipped_iff :
    a.MergesForSkipped cs ↔ a.MergesWhere cs ∧ ¬ a.MergesWhere (a.queried cs) := by
  constructor
  · rintro ⟨hone, hgender, hskipped, hpoints⟩
    refine ⟨⟨hone, hgender, hpoints⟩, ?_⟩
    rintro ⟨-, ⟨c, hc, hfield⟩, -⟩
    obtain ⟨hmem, hqueried⟩ := List.mem_filter.1 hc
    rw [hskipped c hmem hfield] at hqueried
    exact Bool.false_ne_true hqueried
  · rintro ⟨⟨hone, hgender, hpoints⟩, hnot⟩
    refine ⟨hone, hgender, fun c hc hfield => ?_, hpoints⟩
    by_contra hqueried
    rw [Bool.not_eq_false] at hqueried
    refine hnot ⟨?_, ⟨c, List.mem_filter.2 ⟨hc, hqueried⟩, hfield⟩,
      (a.joinsPoints_queried_iff cs).2 hpoints⟩
    rw [contactClauses_queried, hone]

theorem whereOf_queried_eq_iff :
    a.whereOf (a.queried cs) = a.whereOf cs ↔ ¬ a.MergesForSkipped cs := by
  rw [mergesForSkipped_iff]
  by_cases hmerges : a.MergesWhere (a.queried cs)
  · refine iff_of_true ?_ fun h => h.2 hmerges
    rw [whereOf_of_mergesWhere a hmerges, whereOf_of_mergesWhere a hmerges.of_queried,
      contactClauses_queried]
  · have hqueried := a.ofClauses?_of_not_mergesWhere hmerges
    rw [contactClauses_queried] at hqueried
    by_cases hall : a.MergesWhere cs
    · refine iff_of_false (fun heq => ?_) fun h => h ⟨hall, hmerges⟩
      rw [heq, whereOf_of_mergesWhere a hall] at hqueried
      exact Filter.ofClauses?_ne_merged _ _ hqueried.symm
    · refine iff_of_true (Option.some.inj ?_) fun h => hall h.1
      rw [hqueried, a.ofClauses?_of_not_mergesWhere hall]

/-! ### The document -/

theorem whereClauses_queried :
    (a.assemble (a.queried cs)).value.whereClauses = (a.assemble cs).value.whereClauses := by
  rw [whereClauses_assemble, whereClauses_assemble, contactClauses_queried]

theorem assemble_queried : (a.assemble (a.queried cs)).value
    = { (a.assemble cs).value with
        query :=
          { (a.assemble cs).value.query with filter := some (a.whereOf (a.queried cs)) } } := by
  rw [assemble_eq_documentOf, assemble_eq_documentOf, documentOf, documentOf, havingOf, havingOf,
    sumClauses_queried, joinEntries_queried]

theorem assemble_queried_eq_iff_whereOf :
    (a.assemble (a.queried cs)).value = (a.assemble cs).value
      ↔ a.whereOf (a.queried cs) = a.whereOf cs := by
  rw [assemble_queried]
  constructor
  · intro h
    have hfilter : some (a.whereOf (a.queried cs)) = (a.assemble cs).value.query.filter :=
      congrArg (fun d : Document => d.query.filter) h
    rw [filter_assemble] at hfilter
    exact Option.some.inj hfilter
  · intro h
    rw [h, ← filter_assemble]

/-- Without the conditions that are skipped the document has the same clauses, groups and joins. It
is the same document unless conditions on gender that are skipped have its `where` part merged. -/
theorem assemble_queried_eq_iff :
    (a.assemble (a.queried cs)).value
        = { (a.assemble cs).value with
            query :=
              { (a.assemble cs).value.query with filter := some (a.whereOf (a.queried cs)) } }
      ∧ (a.assemble (a.queried cs)).value.whereClauses = (a.assemble cs).value.whereClauses
      ∧ ((a.assemble (a.queried cs)).value = (a.assemble cs).value ↔ ¬ a.MergesForSkipped cs) := by
  refine ⟨a.assemble_queried cs, a.whereClauses_queried cs, ?_⟩
  rw [assemble_queried_eq_iff_whereOf, whereOf_queried_eq_iff]

/-- The standard tables never skip a condition on gender. -/
theorem assemble_queried_withStandardTables (settings : Settings) :
    ((withStandardTables settings).assemble ((withStandardTables settings).queried cs)).value
      = ((withStandardTables settings).assemble cs).value := by
  rw [assemble_queried_eq_iff_whereOf, whereOf_queried_eq_iff]
  rintro ⟨-, ⟨c, hc, hgender⟩, hskipped, -⟩
  have hqueried := hskipped c hc hgender
  simp [isQueried, collectionOf_of_gender settings hgender] at hqueried

/-! ### A skipped condition that shows

Where gender is a field of the products, a condition on it is skipped. Still it has the clause on
the status merged with the limit to the merchant. -/

def genderOfProducts : Assembler where
  settings := .standard
  resolve := FieldTables.resolve
    { tables := [(.products, ["gender"]), (.pointHistories, ["point"])]
      fallback := .contacts }

def activeWithPoints : List Condition :=
  [equalTo "status" "active", pointsOver 100]

theorem merged_for_skipped_gender :
    genderOfProducts.collectionOf (equalTo "gender" "female") = .products
      ∧ genderOfProducts.queried (equalTo "gender" "female" :: activeWithPoints)
          = activeWithPoints
      ∧ (genderOfProducts.assemble (equalTo "gender" "female" :: activeWithPoints)).value.query.filter
          = some (.merged [⟨"status", .equals (.str "active")⟩,
              ⟨"merchant_id", .equals (.str "68468c7bbffca9a0a6b2a413")⟩])
      ∧ (genderOfProducts.assemble activeWithPoints).value.query.filter
          = some (.and [⟨"status", .equals (.str "active")⟩,
              ⟨"merchant_id", .equals (.str "68468c7bbffca9a0a6b2a413")⟩]) := by
  decide

end SegmentFlow.Compile.Assembler
