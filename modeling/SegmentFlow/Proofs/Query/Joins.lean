import Mathlib.Data.Finset.Card
import SegmentFlow.Proofs.Keyed
import SegmentFlow.Query.Document
/-!
# Joins as an ordered map

Two views say all there is to know of a list of joins: its names in order, and the entry that each
name looks up. An insertion adds its name last unless it is there already, and changes what its own
name looks up and nothing else. As long as no name repeats, which every insertion preserves, the two
views together give the list back. So after a run of insertions the names are those inserted, as they
came first, and each looks up what was inserted under it last.
-/

namespace SegmentFlow.Query.Joins

def names (joins : Joins) : List String :=
  joins.entries.map Prod.fst

theorem lookup_eq_get? (n : String) (es : List (String × JoinEntry)) :
    es.lookup n = (Keyed.get? Prod.fst n es).map Prod.snd := by
  induction es with
  | nil => rfl
  | cons e es ih =>
      obtain ⟨k, entry⟩ := e
      rw [Keyed.get?] at ih ⊢
      by_cases hn : k = n
      · rw [hn, List.lookup_cons_self, List.find?_cons_of_pos (by simp), Option.map_some]
      · rw [List.lookup_cons, beq_false_of_ne (Ne.symm hn), List.find?_cons_of_neg (by simpa using hn),
          ← ih]

/-- The entry that comes out is the one that was looked up before. -/
theorem putEntry_eq (name : String) (entry : JoinEntry) (es : List (String × JoinEntry)) :
    putEntry name entry es = (Keyed.put Prod.fst (name, entry) es, es.lookup name) := by
  induction es with
  | nil => rfl
  | cons e es ih =>
      obtain ⟨k, old⟩ := e
      rw [putEntry, Keyed.put]
      by_cases hk : k = name
      · rw [if_pos hk, if_pos hk, hk, List.lookup_cons_self]
      · rw [if_neg hk, if_neg hk, ih, List.lookup_cons, beq_false_of_ne (Ne.symm hk)]

theorem entries_insert (joins : Joins) (name : String) (entry : JoinEntry) :
    (joins.insert name entry).1.entries = Keyed.put Prod.fst (name, entry) joins.entries := by
  rw [insert, putEntry_eq]

theorem names_insert (joins : Joins) (name : String) (entry : JoinEntry) :
    (joins.insert name entry).1.names
      = if name ∈ joins.names then joins.names else joins.names ++ [name] := by
  rw [names, entries_insert]
  exact Keyed.map_key_put Prod.fst (name, entry) joins.entries

theorem get?_insert (joins : Joins) (name n : String) (entry : JoinEntry) :
    (joins.insert name entry).1.get? n = if n = name then some entry else joins.get? n := by
  rw [get?, get?, entries_insert, lookup_eq_get?, lookup_eq_get?, Keyed.get?_put]
  split <;> rfl

/-- What an insertion gives back is what its name looked up before. -/
theorem replaced_insert (joins : Joins) (name : String) (entry : JoinEntry) :
    (joins.insert name entry).2 = joins.get? name := by
  rw [insert, putEntry_eq, get?]

theorem contains_iff {joins : Joins} {name : String} :
    joins.contains name = true ↔ name ∈ joins.names := by
  rw [contains, get?, lookup_eq_get?, Option.isSome_map, Keyed.get?_isSome_iff, names]

/-- The names and what they look up give the list back. -/
theorem entries_eq {joins : Joins} (hnodup : joins.names.Nodup) :
    joins.entries = joins.names.filterMap fun n => (joins.get? n).map (n, ·) := by
  refine (Keyed.eq_filterMap_get? Prod.fst hnodup).trans (List.filterMap_congr fun n _ => ?_)
  rw [get?, lookup_eq_get?]
  cases hget : Keyed.get? Prod.fst n joins.entries with
  | none => rfl
  | some e => rw [Option.map_some, Option.map_some, ← Keyed.key_of_get?_eq_some Prod.fst hget]

/-! ### Runs of insertions -/

/-- The joins after entries were inserted one after another, beginning with no joins. -/
def ofInsertions (insertions : List (String × JoinEntry)) : Joins :=
  insertions.foldl (fun joins i => (joins.insert i.1 i.2).1) .empty

theorem ofInsertions_append (insertions : List (String × JoinEntry)) (i : String × JoinEntry) :
    ofInsertions (insertions ++ [i]) = ((ofInsertions insertions).insert i.1 i.2).1 := by
  rw [ofInsertions, List.foldl_append]
  rfl

theorem entries_ofInsertions (insertions : List (String × JoinEntry)) :
    (ofInsertions insertions).entries = Keyed.putAll Prod.fst insertions := by
  induction insertions using List.reverseRecOn with
  | nil => rfl
  | append_singleton insertions i ih =>
      rw [ofInsertions_append, entries_insert, ih, Keyed.putAll_append]

theorem names_ofInsertions (insertions : List (String × JoinEntry)) :
    (ofInsertions insertions).names = (insertions.map Prod.fst).eraseDups := by
  rw [names, entries_ofInsertions, Keyed.map_key_putAll]

theorem nodup_names_ofInsertions (insertions : List (String × JoinEntry)) :
    (ofInsertions insertions).names.Nodup := by
  rw [names, entries_ofInsertions]
  exact Keyed.nodup_putAll Prod.fst insertions

theorem size_ofInsertions (insertions : List (String × JoinEntry)) :
    (ofInsertions insertions).size = (insertions.map Prod.fst).toFinset.card := by
  have hnames : (ofInsertions insertions).names.toFinset = (insertions.map Prod.fst).toFinset := by
    ext name
    rw [List.mem_toFinset, List.mem_toFinset, names_ofInsertions, List.mem_eraseDups]
  rw [← hnames, List.toFinset_card_of_nodup (nodup_names_ofInsertions insertions), names,
    List.length_map, size]

theorem get?_ofInsertions (insertions : List (String × JoinEntry)) (name : String) :
    (ofInsertions insertions).get? name
      = (insertions.reverse.find? fun i => i.1 = name).map Prod.snd := by
  rw [get?, lookup_eq_get?, entries_ofInsertions, Keyed.get?_putAll]

/-- After any run of insertions the names are those inserted, each once and in the order in which they
came first; a name looks up the last entry inserted under it. A further insertion gives back what its
name looked up, and an entry under another name stays in its place. -/
theorem ordered_map_of_insertions (insertions : List (String × JoinEntry)) :
    (ofInsertions insertions).names.Nodup
      ∧ (ofInsertions insertions).names = (insertions.map Prod.fst).eraseDups
      ∧ (ofInsertions insertions).size = (insertions.map Prod.fst).toFinset.card
      ∧ (∀ name, (ofInsertions insertions).get? name
          = (insertions.reverse.find? fun i => i.1 = name).map Prod.snd)
      ∧ ∀ name entry,
          ((ofInsertions insertions).insert name entry).2 = (ofInsertions insertions).get? name
            ∧ ∀ (e : String × JoinEntry) (i : Nat), e.1 ≠ name →
                (((ofInsertions insertions).insert name entry).1.entries[i]? = some e
                  ↔ (ofInsertions insertions).entries[i]? = some e) := by
  refine ⟨nodup_names_ofInsertions insertions, names_ofInsertions insertions,
    size_ofInsertions insertions, get?_ofInsertions insertions, fun name entry => ⟨?_, ?_⟩⟩
  · exact replaced_insert _ name entry
  · intro e i hne
    rw [entries_insert]
    exact Keyed.getElem?_put_of_ne Prod.fst hne _ i

/-- Orders are joined again after points, so that the second entry takes the place of the first. -/
def twiceOrders : List (String × JoinEntry) :=
  [("orders", .on ["SUM(total)"] "user_id" "user_id"),
    ("point_histories", .on ["SUM(point)"] "user_id" "user_id"),
    ("orders", .on ["SUM(item_count)"] "user_id" "user_id")]

theorem ordered_map_of_insertions_twiceOrders :
    (ofInsertions twiceOrders).names = ["orders", "point_histories"]
      ∧ (ofInsertions twiceOrders).size = 2
      ∧ (ofInsertions twiceOrders).get? "orders" = some (.on ["SUM(item_count)"] "user_id" "user_id")
      ∧ ((ofInsertions twiceOrders).insert "orders" (.on [] "id" "id")).2
        = (ofInsertions twiceOrders).get? "orders"
      ∧ "point_histories" ≠ "orders"
      ∧ ((ofInsertions twiceOrders).insert "orders" (.on [] "id" "id")).1.entries[1]?
        = some ("point_histories", .on ["SUM(point)"] "user_id" "user_id") := by
  obtain ⟨-, hnames, hsize, hget, hinsert⟩ := ordered_map_of_insertions twiceOrders
  obtain ⟨hreplaced, hothers⟩ := hinsert "orders" (.on [] "id" "id")
  have hne : "point_histories" ≠ "orders" := by decide
  rw [hnames, hsize, hget]
  refine ⟨by decide +kernel, by decide +kernel, by decide +kernel, ?_, hne, ?_⟩
  · rw [hreplaced, hget]
  · refine (hothers ("point_histories", .on ["SUM(point)"] "user_id" "user_id") 1 hne).2 ?_
    decide +kernel

end SegmentFlow.Query.Joins
