import SegmentFlow.Compile.Assembly
import SegmentFlow.Proofs.Query.Joins
import Mathlib.Data.List.Induction
/-!
# The document of a list of conditions, in closed form

`assemble` walks over the conditions with a state that every one of them may change. Here the
document is told part by part from the whole list instead: which conditions give which clauses, which
collections are joined in which order, and which condition each join is made for. The closed form has
its own spelling of every name, text and shape that stands in a document, and takes from the
compiler only what one condition is as a clause.

What one condition does to the state is said once for each part (`whereClauses_add` and its
neighbours), and `gather` says what a whole walk does, by induction on the list from its end. The
rest of the theory reaches the walk only through the facts about `gather` and `assemble`.
-/

namespace SegmentFlow

/-- The collections that a query joins to the contacts. -/
def Collection.isJoined : Collection → Bool
  | .orders | .pointHistories => true
  | _ => false

theorem Collection.isJoined_iff {k : Collection} :
    k.isJoined = true ↔ k = .orders ∨ k = .pointHistories := by
  cases k <;> simp [isJoined]

theorem Collection.eq_of_name_eq {k l : Collection} (hk : k.isJoined = true)
    (hl : l.isJoined = true) (hname : k.name = l.name) : k = l := by
  cases k <;> cases l <;> simp_all [isJoined, name]

namespace Compile

open Query (Clause Document Filter JoinEntry Joins)

namespace Assembler

variable (a : Assembler)

/-- The collection of a condition: what is made of its field and of the collection that it names. -/
def collectionOf (c : Condition) : Collection :=
  a.resolve c.field c.collection

/-- The condition compares a sum: one over orders, or over anything about points but the date on
which they expire. -/
def asksForSum (c : Condition) : Bool :=
  a.collectionOf c = .orders || (a.collectionOf c = .pointHistories && c.field ≠ "expire_date")

/-- The condition is on the date on which points expire. -/
def asksForExpiring (c : Condition) : Bool :=
  a.collectionOf c = .pointHistories && c.field = "expire_date"

def contactClauses (cs : List Condition) : List Clause :=
  (cs.filter fun c => a.collectionOf c = .contacts).flatMap fun c => c.clauses c.field

def sumClauses (cs : List Condition) : List Clause :=
  (cs.filter a.asksForSum).map fun c =>
    c.clause ("SUM(" ++ (a.collectionOf c).name ++ "." ++ c.field ++ ")")

/-- The collections to join, in the order of the first conditions on them. -/
def joinedCollections (cs : List Condition) : List Collection :=
  ((cs.map a.collectionOf).filter Collection.isJoined).eraseDups

/-- The last of the conditions on the date on which points expire. -/
def lastExpiring? (cs : List Condition) : Option Condition :=
  cs.reverse.find? a.asksForExpiring

/-- The join of a collection. Orders are joined for the first condition on them. Points are joined
for the last condition on the date on which they expire, and without one for the first condition on
them. -/
def joinOf? (cs : List Condition) : Collection → Option JoinEntry
  | .orders =>
    (cs.find? fun c => a.collectionOf c = .orders).map fun c =>
      { select := ["SUM(" ++ c.field ++ ") as " ++ c.field]
        filter := none
        groupBy := none
        having := none
        join := a.settings.keyColumn ++ ":" ++ a.settings.keyColumn }
  | .pointHistories =>
    let expiring := (a.lastExpiring? cs).map fun c : Condition =>
      { select := ["SUM(point_histories.point) as expiring_points"]
        filter := some (.and [c.clause c.field])
        groupBy := some [a.settings.keyColumn]
        having := some (.clause ⟨"sum", .compare .greaterThan (.num (.integer 1000))⟩)
        join := a.settings.keyColumn ++ ":" ++ a.settings.keyColumn }
    expiring.or <|
      (cs.find? fun c => a.collectionOf c = .pointHistories).map fun c =>
        { select := ["SUM(point_histories." ++ c.field ++ ")" ++ " as " ++ c.field ++ "s"]
          filter := none
          groupBy := none
          having := none
          join := a.settings.keyColumn ++ ":" ++ a.settings.keyColumn }
  | _ => none

def joinEntries (cs : List Condition) : List (String × JoinEntry) :=
  (a.joinedCollections cs).filterMap fun k =>
    (a.joinOf? cs k).map (if k = .orders then "orders" else "point_histories", ·)

/-- The `where` part. The limit to one merchant stands alone if no condition gives a clause. -/
def whereOf (cs : List Condition) : Filter :=
  let limit : Clause := ⟨"merchant_id", .equals (.str a.settings.merchantId)⟩
  let clauses := a.contactClauses cs ++ [limit]
  if clauses.length = 1 then .clause limit
  else if clauses.length = 2 ∧ (∃ c ∈ cs, c.field = "gender") ∧
      ∃ c ∈ cs, a.collectionOf c = .pointHistories then .merged clauses
  else .and clauses

/-- The `having` part, if a sum is compared. -/
def havingOf (cs : List Condition) : Option Filter :=
  match a.sumClauses cs with
  | [] => none
  | [p] => some (.clause p)
  | ps => some (.and ps)

def documentOf (cs : List Condition) : Document where
  collection := "contacts"
  query :=
    { select := [a.settings.keyColumn]
      filter := some (a.whereOf cs)
      groupBy := if a.sumClauses cs = [] then none else some [a.settings.keyColumn]
      having := a.havingOf cs
      joins := ⟨a.joinEntries cs⟩ }

end Assembler

/-! ### One condition

A condition takes one of five ways through `add`. -/

namespace Assembler

/-- The ways that a condition can take. -/
inductive Routed (a : Assembler) (c : Condition) : Prop where
  | contacts (hk : a.collectionOf c = .contacts)
  | orders (hk : a.collectionOf c = .orders)
  | expiring (hk : a.collectionOf c = .pointHistories) (hfield : c.field = "expire_date")
  | points (hk : a.collectionOf c = .pointHistories) (hfield : c.field ≠ "expire_date")
  | skipped (hcontacts : a.collectionOf c ≠ .contacts) (horders : a.collectionOf c ≠ .orders)
      (hpoints : a.collectionOf c ≠ .pointHistories)

theorem routed (a : Assembler) (c : Condition) : a.Routed c := by
  cases hk : a.collectionOf c with
  | contacts => exact .contacts hk
  | orders => exact .orders hk
  | pointHistories =>
      by_cases hfield : c.field = "expire_date"
      · exact .expiring hk hfield
      · exact .points hk hfield
  | products => exact .skipped (by simp [hk]) (by simp [hk]) (by simp [hk])
  | other name => exact .skipped (by simp [hk]) (by simp [hk]) (by simp [hk])

end Assembler

namespace Assembly

variable {a : Assembler} {c : Condition} (s : Assembly)

theorem add_contacts (hk : a.collectionOf c = .contacts) :
    add a s c = { s with whereClauses := s.whereClauses ++ c.clauses c.field } := by
  rw [Assembler.collectionOf] at hk
  simp only [add, hk]

theorem add_orders (hk : a.collectionOf c = .orders) :
    add a s c = (s.having .orders c).join .orders (a.ordersJoin c.field) := by
  rw [Assembler.collectionOf] at hk
  simp only [add, hk]

theorem add_expiring (hk : a.collectionOf c = .pointHistories) (hfield : c.field = "expire_date") :
    add a s c = s.joinExpiring .pointHistories (a.expiringJoin c) := by
  have hexpire : c.field = expireDateField := hfield
  rw [Assembler.collectionOf] at hk
  simp only [add, hk, if_pos hexpire]

theorem add_points (hk : a.collectionOf c = .pointHistories) (hfield : c.field ≠ "expire_date") :
    add a s c = (s.having .pointHistories c).join .pointHistories (a.pointsJoin c.field) := by
  have hexpire : c.field ≠ expireDateField := hfield
  rw [Assembler.collectionOf] at hk
  simp only [add, hk, if_neg hexpire]

theorem add_skipped (hcontacts : a.collectionOf c ≠ .contacts)
    (horders : a.collectionOf c ≠ .orders) (hpoints : a.collectionOf c ≠ .pointHistories) :
    add a s c
      = { s with
          events := s.events ++ [.conditionSkipped c.id (a.collectionOf c).name c.field] } := by
  rw [Assembler.collectionOf] at hcontacts horders hpoints ⊢
  cases hk : a.resolve c.field c.collection with
  | contacts => exact absurd hk hcontacts
  | orders => exact absurd hk horders
  | pointHistories => exact absurd hk hpoints
  | products => simp only [add, hk]
  | other name => simp only [add, hk]

/-! #### Its clauses -/

@[simp] theorem whereClauses_join (k : Collection) (entry : JoinEntry) :
    (s.join k entry).whereClauses = s.whereClauses := by
  unfold join
  split <;> rfl

@[simp] theorem havingClauses_join (k : Collection) (entry : JoinEntry) :
    (s.join k entry).havingClauses = s.havingClauses := by
  unfold join
  split <;> rfl

theorem whereClauses_add (a : Assembler) (c : Condition) :
    (add a s c).whereClauses
      = s.whereClauses ++ if a.collectionOf c = .contacts then c.clauses c.field else [] := by
  cases a.routed c with
  | contacts hk => rw [add_contacts s hk, if_pos hk]
  | orders hk => simp [add_orders s hk, having, hk]
  | expiring hk hfield => simp [add_expiring s hk hfield, joinExpiring, hk]
  | points hk hfield => simp [add_points s hk hfield, having, hk]
  | skipped hcontacts horders hpoints =>
      simp [add_skipped s hcontacts horders hpoints, hcontacts]

theorem havingClauses_add (a : Assembler) (c : Condition) :
    (add a s c).havingClauses
      = s.havingClauses ++
          if a.asksForSum c then
            [c.clause ("SUM(" ++ (a.collectionOf c).name ++ "." ++ c.field ++ ")")]
          else [] := by
  cases a.routed c with
  | contacts hk => simp [add_contacts s hk, Assembler.asksForSum, hk]
  | orders hk => simp [add_orders s hk, having, aggregate, Assembler.asksForSum, hk]
  | expiring hk hfield =>
      simp [add_expiring s hk hfield, joinExpiring, Assembler.asksForSum, hk, hfield]
  | points hk hfield =>
      simp [add_points s hk hfield, having, aggregate, Assembler.asksForSum, hk, hfield]
  | skipped hcontacts horders hpoints =>
      simp [add_skipped s hcontacts horders hpoints, Assembler.asksForSum, horders, hpoints]

@[simp] theorem needsAggregation_join (k : Collection) (entry : JoinEntry) :
    (s.join k entry).needsAggregation = s.needsAggregation := by
  unfold join
  split <;> rfl

/-- The flag for an aggregation is set exactly if there is a clause over a sum. -/
def FlagsSums : Prop :=
  s.needsAggregation = true ↔ s.havingClauses ≠ []

theorem flagsSums_having (k : Collection) (c : Condition) : (s.having k c).FlagsSums := by
  simp [FlagsSums, having]

theorem FlagsSums.join {s : Assembly} (h : s.FlagsSums) (k : Collection) (entry : JoinEntry) :
    (s.join k entry).FlagsSums := by
  rw [FlagsSums, needsAggregation_join, havingClauses_join]
  exact h

theorem FlagsSums.add {s : Assembly} (h : s.FlagsSums) (a : Assembler) (c : Condition) :
    (Assembly.add a s c).FlagsSums := by
  cases a.routed c with
  | contacts hk => rw [add_contacts s hk]; exact h
  | orders hk => rw [add_orders s hk]; exact (s.flagsSums_having .orders c).join _ _
  | expiring hk hfield => rw [add_expiring s hk hfield]; exact h
  | points hk hfield =>
      rw [add_points s hk hfield]
      exact (s.flagsSums_having .pointHistories c).join _ _
  | skipped hcontacts horders hpoints =>
      rw [add_skipped s hcontacts horders hpoints]
      exact h

/-! #### Its join -/

theorem joins_join (k : Collection) (entry : JoinEntry) :
    (s.join k entry).joins
      = if s.joins.contains k.name then s.joins else (s.joins.insert k.name entry).1 := by
  unfold join
  split <;> rfl

theorem names_join (k : Collection) (entry : JoinEntry) :
    (s.join k entry).joins.names
      = if k.name ∈ s.joins.names then s.joins.names else s.joins.names ++ [k.name] := by
  rw [joins_join]
  by_cases hmem : k.name ∈ s.joins.names
  · rw [if_pos (Joins.contains_iff.2 hmem), if_pos hmem]
  · rw [if_neg fun hcontains => hmem (Joins.contains_iff.1 hcontains), Joins.names_insert]

theorem get?_join (k : Collection) (entry : JoinEntry) (n : String) :
    (s.join k entry).joins.get? n
      = (s.joins.get? n).or (if n = k.name then some entry else none) := by
  rw [joins_join]
  by_cases hcontains : s.joins.contains k.name = true
  · rw [if_pos hcontains]
    by_cases hn : n = k.name
    · obtain ⟨old, hold⟩ := Option.isSome_iff_exists.1 hcontains
      rw [hn, hold, Option.some_or]
    · rw [if_neg hn, Option.or_none]
  · rw [if_neg hcontains, Joins.get?_insert]
    by_cases hn : n = k.name
    · have hnone : s.joins.get? k.name = none := by simpa [Joins.contains] using hcontains
      rw [if_pos hn, if_pos hn, hn, hnone, Option.none_or]
    · rw [if_neg hn, if_neg hn, Option.or_none]

theorem names_add (a : Assembler) (c : Condition) :
    (add a s c).joins.names
      = if (a.collectionOf c).isJoined then
          if (a.collectionOf c).name ∈ s.joins.names then s.joins.names
          else s.joins.names ++ [(a.collectionOf c).name]
        else s.joins.names := by
  cases a.routed c with
  | contacts hk => rw [add_contacts s hk, hk]; rfl
  | orders hk => rw [add_orders s hk, hk, names_join]; rfl
  | expiring hk hfield => rw [add_expiring s hk hfield, hk]; exact Joins.names_insert s.joins _ _
  | points hk hfield => rw [add_points s hk hfield, hk, names_join]; rfl
  | skipped hcontacts horders hpoints =>
      have hjoined : ¬ (a.collectionOf c).isJoined = true := fun h =>
        (Collection.isJoined_iff.1 h).elim horders hpoints
      rw [add_skipped s hcontacts horders hpoints, if_neg hjoined]

theorem get?_orders_add (a : Assembler) (c : Condition) :
    (add a s c).joins.get? Collection.orders.name
      = (s.joins.get? Collection.orders.name).or
          (if a.collectionOf c = .orders then some (a.ordersJoin c.field) else none) := by
  have hnames : Collection.orders.name ≠ Collection.pointHistories.name := by decide
  cases a.routed c with
  | contacts hk => simp [add_contacts s hk, hk]
  | orders hk => rw [add_orders s hk, get?_join, if_pos rfl, if_pos hk]; rfl
  | expiring hk hfield =>
      simp [add_expiring s hk hfield, joinExpiring, Joins.get?_insert, hnames, hk]
  | points hk hfield => simp [add_points s hk hfield, get?_join, having, hnames, hk]
  | skipped hcontacts horders hpoints =>
      simp [add_skipped s hcontacts horders hpoints, horders]

theorem get?_points_add (a : Assembler) (c : Condition) :
    (add a s c).joins.get? Collection.pointHistories.name
      = if a.asksForExpiring c then some (a.expiringJoin c)
        else (s.joins.get? Collection.pointHistories.name).or
          (if a.collectionOf c = .pointHistories then some (a.pointsJoin c.field) else none) := by
  have hnames : Collection.pointHistories.name ≠ Collection.orders.name := by decide
  cases a.routed c with
  | contacts hk => simp [add_contacts s hk, Assembler.asksForExpiring, hk]
  | orders hk =>
      simp [add_orders s hk, get?_join, having, Assembler.asksForExpiring, hnames, hk]
  | expiring hk hfield =>
      simp [add_expiring s hk hfield, joinExpiring, Joins.get?_insert, Assembler.asksForExpiring, hk,
        hfield]
  | points hk hfield =>
      simp [add_points s hk hfield, get?_join, having, Assembler.asksForExpiring, hk, hfield]
  | skipped hcontacts horders hpoints =>
      simp [add_skipped s hcontacts horders hpoints, Assembler.asksForExpiring, hpoints]

end Assembly

/-! ### The whole walk

Each part is an induction on the list from its end, since a condition acts on what the ones before it
have gathered. -/

namespace Assembler

variable (a : Assembler)

/-- What a walk over the conditions gathers. -/
def gather (cs : List Condition) : Assembly :=
  cs.foldl (Assembly.add a) .empty

theorem gather_append (cs : List Condition) (c : Condition) :
    a.gather (cs ++ [c]) = Assembly.add a (a.gather cs) c := by
  rw [gather, List.foldl_append]
  rfl

theorem whereClauses_gather (cs : List Condition) :
    (a.gather cs).whereClauses = a.contactClauses cs := by
  induction cs using List.reverseRecOn with
  | nil => rfl
  | append_singleton cs c ih =>
      rw [gather_append, Assembly.whereClauses_add, ih, contactClauses, contactClauses,
        List.filter_append, List.flatMap_append]
      by_cases hk : a.collectionOf c = .contacts <;> simp [hk]

theorem havingClauses_gather (cs : List Condition) :
    (a.gather cs).havingClauses = a.sumClauses cs := by
  induction cs using List.reverseRecOn with
  | nil => rfl
  | append_singleton cs c ih =>
      rw [gather_append, Assembly.havingClauses_add, ih, sumClauses, sumClauses, List.filter_append,
        List.map_append]
      by_cases hsum : a.asksForSum c <;> simp [hsum]

theorem flagsSums_gather (cs : List Condition) : (a.gather cs).FlagsSums := by
  induction cs using List.reverseRecOn with
  | nil => simp [Assembly.FlagsSums, gather, Assembly.empty]
  | append_singleton cs c ih =>
      rw [gather_append]
      exact ih.add a c

theorem needsAggregation_gather (cs : List Condition) :
    (a.gather cs).needsAggregation = true ↔ a.sumClauses cs ≠ [] := by
  rw [← havingClauses_gather]
  exact a.flagsSums_gather cs

theorem mem_joinedCollections {cs : List Condition} {k : Collection} :
    k ∈ a.joinedCollections cs ↔ k.isJoined = true ∧ ∃ c ∈ cs, a.collectionOf c = k := by
  simp [joinedCollections, List.mem_eraseDups, and_comm]

theorem joinedCollections_append (cs : List Condition) (c : Condition) :
    a.joinedCollections (cs ++ [c])
      = if (a.collectionOf c).isJoined then
          if a.collectionOf c ∈ a.joinedCollections cs then a.joinedCollections cs
          else a.joinedCollections cs ++ [a.collectionOf c]
        else a.joinedCollections cs := by
  rw [joinedCollections, joinedCollections, List.map_append, List.filter_append, List.map_singleton,
    List.filter_singleton]
  by_cases hjoined : (a.collectionOf c).isJoined = true
  · rw [hjoined, cond_true, if_pos rfl, Keyed.eraseDups_append_singleton]
    simp only [List.mem_eraseDups]
  · rw [Bool.not_eq_true] at hjoined
    rw [hjoined, cond_false, List.append_nil, if_neg Bool.false_ne_true]

theorem names_gather (cs : List Condition) :
    (a.gather cs).joins.names = (a.joinedCollections cs).map Collection.name := by
  induction cs using List.reverseRecOn with
  | nil => rfl
  | append_singleton cs c ih =>
      rw [gather_append, Assembly.names_add, ih, joinedCollections_append]
      by_cases hjoined : (a.collectionOf c).isJoined = true
      · have hmem : (a.collectionOf c).name ∈ (a.joinedCollections cs).map Collection.name
            ↔ a.collectionOf c ∈ a.joinedCollections cs := by
          refine ⟨fun h => ?_, List.mem_map_of_mem⟩
          obtain ⟨k, hk, hname⟩ := List.mem_map.1 h
          have hkjoined := ((mem_joinedCollections a).1 hk).1
          exact Collection.eq_of_name_eq hkjoined hjoined hname ▸ hk
        rw [if_pos hjoined, if_pos hjoined]
        by_cases hk : a.collectionOf c ∈ a.joinedCollections cs
        · rw [if_pos hk, if_pos (hmem.2 hk)]
        · rw [if_neg hk, if_neg fun h => hk (hmem.1 h), List.map_append]
          rfl
      · rw [if_neg hjoined, if_neg hjoined]

theorem nodup_names_gather (cs : List Condition) : (a.gather cs).joins.names.Nodup := by
  induction cs using List.reverseRecOn with
  | nil => exact List.nodup_nil
  | append_singleton cs c ih =>
      rw [gather_append, Assembly.names_add]
      split
      · split
        · exact ih
        · rename_i hnew
          rw [← List.concat_eq_append]
          exact ih.concat hnew
      · exact ih

/-! The entries of the closed form are those that the assembler makes. -/

theorem joinOf?_orders (cs : List Condition) :
    a.joinOf? cs .orders
      = (cs.find? fun c => a.collectionOf c = .orders).map fun c => a.ordersJoin c.field := rfl

theorem joinOf?_pointHistories (cs : List Condition) :
    a.joinOf? cs .pointHistories
      = ((a.lastExpiring? cs).map a.expiringJoin).or
          ((cs.find? fun c => a.collectionOf c = .pointHistories).map fun c =>
            a.pointsJoin c.field) := rfl

theorem get?_gather (cs : List Condition) {k : Collection} (hk : k.isJoined = true) :
    (a.gather cs).joins.get? k.name = a.joinOf? cs k := by
  rcases Collection.isJoined_iff.1 hk with rfl | rfl
  · induction cs using List.reverseRecOn with
    | nil => rfl
    | append_singleton cs c ih =>
        rw [gather_append, Assembly.get?_orders_add, ih, joinOf?_orders, joinOf?_orders,
          List.find?_append, Option.map_or]
        by_cases horders : a.collectionOf c = .orders <;> simp [horders]
  · induction cs using List.reverseRecOn with
    | nil => rfl
    | append_singleton cs c ih =>
        rw [gather_append, Assembly.get?_points_add, ih, joinOf?_pointHistories,
          joinOf?_pointHistories, lastExpiring?, lastExpiring?, List.reverse_append,
          List.find?_append, List.find?_append, Option.map_or]
        by_cases hexpiring : a.asksForExpiring c
        · simp [hexpiring]
        · by_cases hpoints : a.collectionOf c = .pointHistories <;>
            simp [hexpiring, hpoints]

theorem entries_gather (cs : List Condition) :
    (a.gather cs).joins.entries = a.joinEntries cs := by
  rw [Joins.entries_eq (a.nodup_names_gather cs), names_gather, List.filterMap_map, joinEntries]
  refine List.filterMap_congr fun k hk => ?_
  have hjoined : k.isJoined = true := ((mem_joinedCollections a).1 hk).1
  have hname : k.name = if k = .orders then "orders" else "point_histories" := by
    rcases Collection.isJoined_iff.1 hjoined with rfl | rfl <;> rfl
  rw [Function.comp_apply, get?_gather a cs hjoined, hname]

theorem contains_points_gather (cs : List Condition) :
    (a.gather cs).joins.contains Collection.pointHistories.name = true
      ↔ ∃ c ∈ cs, a.collectionOf c = .pointHistories := by
  rw [Joins.contains_iff, names_gather, List.mem_map]
  constructor
  · rintro ⟨k, hk, hname⟩
    obtain ⟨hjoined, hc⟩ := (mem_joinedCollections a).1 hk
    exact Collection.eq_of_name_eq hjoined rfl hname ▸ hc
  · intro hc
    exact ⟨.pointHistories, (mem_joinedCollections a).2 ⟨rfl, hc⟩, rfl⟩

/-! ### The document

Without conditions there is no walk, and with some the document is made of what the walk has
gathered. -/

private theorem ofClauses?_cons_append (p m : Clause) (ps : List Clause) :
    Filter.ofClauses? (p :: ps ++ [m]) = some (.and (p :: ps ++ [m])) := by
  cases ps <;> rfl

theorem joins_assemble_eq_gather (cs : List Condition) :
    (a.assemble cs).value.query.joins = (a.gather cs).joins := by
  cases cs <;> rfl

theorem filter_assemble (cs : List Condition) :
    (a.assemble cs).value.query.filter = some (a.whereOf cs) := by
  cases cs with
  | nil => rfl
  | cons c cs =>
      change whereFilter ((a.gather (c :: cs)).whereClauses ++ [a.merchantClause])
        ((c :: cs).any fun c => c.field = "gender")
        ((a.gather (c :: cs)).joins.contains Collection.pointHistories.name) = _
      rw [whereClauses_gather, whereFilter, whereOf, ← merchantClause]
      cases a.contactClauses (c :: cs) with
      | nil => rfl
      | cons p ps =>
          have hlength : (p :: ps ++ [a.merchantClause]).length ≠ 1 := by simp
          have hmerged : ((p :: ps ++ [a.merchantClause]).length = 2
                && ((c :: cs).any fun c => c.field = "gender")
                && (a.gather (c :: cs)).joins.contains Collection.pointHistories.name) = true
              ↔ (p :: ps ++ [a.merchantClause]).length = 2 ∧ (∃ d ∈ c :: cs, d.field = "gender") ∧
                  ∃ d ∈ c :: cs, a.collectionOf d = .pointHistories := by
            simp only [Bool.and_eq_true, contains_points_gather, List.any_eq_true,
              decide_eq_true_eq, and_assoc]
          simp only [if_neg hlength, hmerged, ofClauses?_cons_append]
          split <;> rfl

theorem groupBy_assemble (cs : List Condition) :
    (a.assemble cs).value.query.groupBy
      = if a.sumClauses cs = [] then none else some [a.settings.keyColumn] := by
  cases cs with
  | nil => rfl
  | cons c cs =>
      change (if (a.gather (c :: cs)).needsAggregation then some [a.settings.keyColumn] else none) = _
      simp only [needsAggregation_gather, ne_eq, ite_not]

theorem having_assemble (cs : List Condition) :
    (a.assemble cs).value.query.having = Filter.ofClauses? (a.sumClauses cs) := by
  cases cs with
  | nil => rfl
  | cons c cs => exact congrArg Filter.ofClauses? (a.havingClauses_gather (c :: cs))

theorem havingOf_eq (cs : List Condition) : a.havingOf cs = Filter.ofClauses? (a.sumClauses cs) := by
  rw [havingOf]
  cases a.sumClauses cs with
  | nil => rfl
  | cons p ps => cases ps <;> rfl

theorem joins_assemble (cs : List Condition) :
    (a.assemble cs).value.query.joins = ⟨a.joinEntries cs⟩ := by
  rw [joins_assemble_eq_gather]
  exact congrArg Joins.mk (a.entries_gather cs)

theorem select_assemble (cs : List Condition) :
    (a.assemble cs).value.query.select = [a.settings.keyColumn] := by
  cases cs <;> rfl

theorem collection_assemble (cs : List Condition) :
    (a.assemble cs).value.collection = "contacts" := by
  cases cs <;> rfl

/-- Assembling gives the document that the closed form tells. -/
theorem assemble_eq_documentOf (cs : List Condition) :
    (a.assemble cs).value = a.documentOf cs := by
  rw [documentOf, havingOf_eq, ← a.collection_assemble cs, ← a.filter_assemble cs,
    ← a.groupBy_assemble cs, ← a.having_assemble cs, ← a.joins_assemble cs, ← a.select_assemble cs]

end Assembler

end Compile

end SegmentFlow
