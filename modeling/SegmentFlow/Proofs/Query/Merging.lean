import SegmentFlow.Proofs.Json.Members
import SegmentFlow.Proofs.Keyed
import SegmentFlow.Query.Clause
/-!
# Merged filters

A merged filter is written as one flat object with one member for each field. The member of a field
is that of the last clause on the field, so a clause that comes last is never overridden.
-/

namespace SegmentFlow.Query.Filter

theorem put_eq_put (c : Clause) (ds : List Clause) : put c ds = Keyed.put Clause.field c ds := by
  induction ds with
  | nil => rfl
  | cons d ds ih => rw [put, Keyed.put, ih]

theorem flatten_eq_putAll (cs : List Clause) : flatten cs = Keyed.putAll Clause.field cs := by
  rw [flatten, Keyed.putAll]
  exact congrArg (fun step => cs.foldl step []) (funext fun ds => funext fun c => put_eq_put c ds)

/-- Clauses on different fields stay as they are. -/
theorem flatten_of_nodup {cs : List Clause} (hnodup : (cs.map Clause.field).Nodup) :
    flatten cs = cs := by
  rw [flatten_eq_putAll, Keyed.putAll_of_nodup Clause.field hnodup]

/-- A field has one value in a merged filter, which the last clause on it gives. -/
theorem valuesOf_merged (field : String) (cs : List Clause) :
    (merged cs).toJson.valuesOf field
      = ((cs.reverse.find? fun c => c.field = field).map fun c => c.predicate.toJson).toList := by
  have hone := Keyed.filter_key_eq Clause.field (Keyed.nodup_putAll Clause.field cs) field
  rw [Keyed.get?_putAll, ← flatten_eq_putAll] at hone
  rw [toJson, Tree.valuesOf, List.filter_map, List.map_map]
  have hfilter : (fun m : String × Json => decide (m.1 = field))
      ∘ (fun c : Clause => (c.field, c.predicate.toJson)) = fun c => decide (c.field = field) := rfl
  rw [hfilter, hone, ← Option.toList_map]
  rfl

end SegmentFlow.Query.Filter
