import SegmentFlow.Proofs.Query.Legible
/-!
# The members of a merged filter

A merged filter is built clause by clause, with replacements in place. What comes out is said here
without them: the fields in the order in which they come first, each with the predicate of the last
clause on it. No field repeats in that, so what is merged once is not changed by merging it again.
-/

namespace SegmentFlow.Query

/-- A member of an object as a clause, which asks for the value that stands under the name. -/
def Clause.ofMember (m : String × Json) : Clause :=
  ⟨m.1, .equals m.2⟩

namespace Filter

def lastOn? (field : String) (cs : List Clause) : Option Clause :=
  cs.reverse.find? fun c => c.field = field

/-- What the last clause on each field is written as, in the order of the first ones. -/
def lastMembers (cs : List Clause) : List (String × Json) :=
  (cs.map Clause.field).eraseDups.filterMap fun field => (lastOn? field cs).map Clause.member

theorem map_member_flatten (cs : List Clause) :
    (flatten cs).map Clause.member = lastMembers cs := by
  have hflat := Keyed.eq_filterMap_get? Clause.field (Keyed.nodup_putAll Clause.field cs)
  rw [Keyed.map_key_putAll] at hflat
  rw [flatten_eq_putAll, hflat, List.map_filterMap, lastMembers]
  refine List.filterMap_congr fun field _ => ?_
  rw [Keyed.get?_putAll, lastOn?]

theorem toJson_merged_eq (cs : List Clause) : (merged cs).toJson = .obj (lastMembers cs) := by
  rw [← map_member_flatten]
  rfl

theorem names_lastMembers (cs : List Clause) :
    (lastMembers cs).map Prod.fst = (cs.map Clause.field).eraseDups := by
  rw [← map_member_flatten, List.map_map, flatten_eq_putAll]
  exact Keyed.map_key_putAll Clause.field cs

theorem nodup_names_lastMembers (cs : List Clause) : ((lastMembers cs).map Prod.fst).Nodup := by
  rw [← map_member_flatten, List.map_map, flatten_eq_putAll]
  exact Keyed.nodup_putAll Clause.field cs

/-- Clauses that are written as the members of an object with no repeated name are merged into that
object. -/
theorem toJson_merged_of_member {ds : List Clause} {members : List (String × Json)}
    (hds : ds.map Clause.member = members) (hnodup : (members.map Prod.fst).Nodup) :
    (merged ds).toJson = .obj members := by
  rw [← hds, List.map_map] at hnodup
  rw [toJson_merged hnodup, hds]

/-- Every clause is written exactly if no field comes twice. -/
theorem toJson_merged_eq_iff (cs : List Clause) :
    (merged cs).toJson = .obj (cs.map Clause.member) ↔ (cs.map Clause.field).Nodup := by
  refine ⟨fun h => ?_, toJson_merged⟩
  rw [toJson_merged_eq, Tree.obj.injEq] at h
  have hnodup := nodup_names_lastMembers cs
  rw [h, List.map_map] at hnodup
  exact hnodup

/-- A merged filter is written as an object with one member for each field, in the order in which the
fields come first and with the predicate of the last clause on each. The members, read as clauses in any
way that writes them the same, give the object again. No clause is dropped exactly if no field comes
twice. -/
theorem merged_first_place_last_predicate (cs : List Clause) :
    (merged cs).toJson = .obj (lastMembers cs)
      ∧ (lastMembers cs).map Prod.fst = (cs.map Clause.field).eraseDups
      ∧ ((lastMembers cs).map Prod.fst).Nodup
      ∧ (merged ((lastMembers cs).map Clause.ofMember)).toJson = (merged cs).toJson
      ∧ (∀ ds : List Clause, ds.map Clause.member = lastMembers cs →
          (merged ds).toJson = (merged cs).toJson)
      ∧ ((merged cs).toJson = .obj (cs.map Clause.member) ↔ (cs.map Clause.field).Nodup) := by
  have hnodup := nodup_names_lastMembers cs
  have hagain : ∀ ds : List Clause, ds.map Clause.member = lastMembers cs →
      (merged ds).toJson = (merged cs).toJson := by
    intro ds hds
    rw [toJson_merged_eq cs, toJson_merged_of_member hds hnodup]
  refine ⟨toJson_merged_eq cs, names_lastMembers cs, hnodup, hagain _ ?_, hagain,
    toJson_merged_eq_iff cs⟩
  rw [List.map_map]
  exact List.map_id _

/-- Two clauses on status, around one on points. -/
def twiceStatus : List Clause :=
  [⟨"status", .equals (.str "active")⟩,
    ⟨"point", .compare .greaterThan (.num (.integer 1000))⟩,
    ⟨"status", .compare .notEqual (.str "blocked")⟩]

theorem merged_first_place_last_predicate_twiceStatus :
    (merged twiceStatus).toJson
        = .obj [("status", .obj [("!=", .str "blocked")]),
            ("point", .obj [(">", .num (.integer 1000))])]
      ∧ (flatten twiceStatus).map Clause.member = lastMembers twiceStatus
      ∧ (merged (flatten twiceStatus)).toJson = (merged twiceStatus).toJson
      ∧ (merged twiceStatus).toJson ≠ .obj (twiceStatus.map Clause.member) := by
  obtain ⟨hjson, -, -, -, hagain, hall⟩ := merged_first_place_last_predicate twiceStatus
  have hflat : (flatten twiceStatus).map Clause.member = lastMembers twiceStatus := by
    decide +kernel
  refine ⟨hjson.trans (by decide +kernel), hflat, hagain _ hflat, fun h => ?_⟩
  exact absurd (hall.1 h) (by decide +kernel)

end Filter

end SegmentFlow.Query
