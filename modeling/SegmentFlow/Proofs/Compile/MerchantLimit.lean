import SegmentFlow.Proofs.Compile.ClosedForm
import SegmentFlow.Proofs.Query.Merging
/-!
# Every query is limited to one merchant

Conditions may be on any field, `merchant_id` among them, and the `where` part has three forms. In
each of them the limit that the settings give comes last: it is the only value of its member in a
flat object, and the last item of a list that is joined by `and`. No condition gets behind it, since
the walk over the conditions is over before it is added, and no join is written under the name
`where`.
-/

namespace SegmentFlow

namespace Query.CollectionQuery

theorem valuesOf_where {q : CollectionQuery} (hnames : "where" ∉ q.joins.names) :
    q.toJson.valuesOf "where" = (q.filter.map Filter.toJson).toList := by
  have hjoins : (q.joins.entries.map fun e => (e.1, e.2.toJson)).filter
      (fun m : String × Json => m.1 = "where") = [] := by
    refine List.filter_eq_nil_iff.2 fun m hm hname => hnames ?_
    obtain ⟨e, he, rfl⟩ := List.mem_map.1 hm
    rw [← of_decide_eq_true hname]
    exact List.mem_map_of_mem he
  rw [toJson, Tree.valuesOf, List.filter_append, List.filter_append, List.filter_append,
    List.filter_cons_of_neg (by simp), filter_optionalMember_self,
    filter_optionalMember_of_ne (by decide), filter_optionalMember_of_ne (by decide), hjoins]
  cases q.filter <;> rfl

end Query.CollectionQuery

namespace Compile.Assembler

open Query (CollectionQuery Document Filter)

variable (a : Assembler)

theorem mem_names_joins_assemble {cs : List Condition} {n : String}
    (hn : n ∈ (a.assemble cs).value.query.joins.names) : n = "orders" ∨ n = "point_histories" := by
  rw [joins_assemble_eq_gather, names_gather] at hn
  obtain ⟨k, hk, rfl⟩ := List.mem_map.1 hn
  rcases Collection.isJoined_iff.1 ((a.mem_joinedCollections).1 hk).1 with rfl | rfl
  · exact .inl rfl
  · exact .inr rfl

theorem valuesOf_where_assemble (cs : List Condition) :
    (a.assemble cs).value.query.toJson.valuesOf "where" = [(a.whereOf cs).toJson] := by
  have hnames : "where" ∉ (a.assemble cs).value.query.joins.names := by
    intro hn
    rcases a.mem_names_joins_assemble hn with heq | heq <;> exact absurd heq (by decide)
  rw [CollectionQuery.valuesOf_where hnames, filter_assemble]
  rfl

/-- The limit to a merchant, in either of the two ways in which a `where` part can say it. -/
def LimitsMerchant (merchantId : String) (part : Json) : Prop :=
  part.valuesOf "merchant_id" = [.str merchantId]
    ∨ ∃ items, part
        = .obj [("and", .arr (items ++ [.obj [("merchant_id", .str merchantId)]]))]

theorem limitsMerchant_whereOf (cs : List Condition) :
    LimitsMerchant a.settings.merchantId (a.whereOf cs).toJson := by
  rw [whereOf]
  split
  · exact .inl rfl
  · split
    · left
      rw [Filter.valuesOf_merged, List.reverse_append]
      rfl
    · right
      refine ⟨(a.contactClauses cs).map Query.Clause.toJson, ?_⟩
      rw [Filter.toJson, List.map_append]
      rfl

/-- Whatever the conditions, the query has one `where` part, and it limits the query to the merchant
of the settings. -/
theorem where_limits_merchant (cs : List Condition) :
    ∃ query part : Json,
      (a.assemble cs).value.toJson.valuesOf "contacts" = [query]
        ∧ query.valuesOf "where" = [part]
        ∧ LimitsMerchant a.settings.merchantId part := by
  have hcontacts : (a.assemble cs).value.toJson.valuesOf "contacts"
      = [(a.assemble cs).value.query.toJson] := by
    rw [Document.toJson, collection_assemble]
    rfl
  exact ⟨_, _, hcontacts, a.valuesOf_where_assemble cs, a.limitsMerchant_whereOf cs⟩

end Compile.Assembler

end SegmentFlow
