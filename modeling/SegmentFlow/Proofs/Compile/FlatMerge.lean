import SegmentFlow.Proofs.Compile.Retention
import SegmentFlow.Proofs.Compile.Unambiguous
/-!
# When the `where` part is one flat object

The assembler merges the `where` clauses on three facts that have little to do with each other: how
many clauses there are, whether any condition is on gender, and whether points are joined. One clause
besides the limit to a merchant means one condition on contacts, and not one about an anniversary,
since that gives two clauses. The standard tables give gender to the contacts whatever collection a
condition names, so that the one condition is the one on gender. The flat object then has one member
for it and one for the merchant, and nothing is lost.
-/

namespace SegmentFlow

open Query (Clause Filter)

theorem Query.Filter.ofClauses?_ne_merged (ps qs : List Clause) :
    ofClauses? ps ≠ some (.merged qs) := by
  cases ps with
  | nil => exact nofun
  | cons p ps => cases ps <;> simp [ofClauses?]

namespace Compile.Assembler

variable (a : Assembler) {cs : List Condition}

/-! ### What is merged -/

def onContacts (cs : List Condition) : List Condition :=
  cs.filter fun c => a.collectionOf c = .contacts

theorem length_contactClauses_eq_one_iff : (a.contactClauses cs).length = 1
    ↔ ∃ c, a.onContacts cs = [c] ∧ c.isAnniversary = false := by
  have hpos (c : Condition) : 0 < (c.clauses c.field).length :=
    List.length_pos_of_ne_nil (c.clauses_ne_nil c.field)
  rw [contactClauses, ← onContacts]
  cases a.onContacts cs with
  | nil => simp
  | cons c cs =>
      cases cs with
      | nil =>
          rw [List.flatMap_singleton, Condition.length_clauses]
          cases hplain : c.isAnniversary <;> simp [hplain]
      | cons d ds =>
          have hc := hpos c
          have hd := hpos d
          simp only [List.flatMap_cons, List.length_append, List.cons.injEq, reduceCtorEq,
            and_false, false_and, exists_false, iff_false]
          omega

/-- What has the `where` part merged: a single clause on contacts, a condition on gender, and one on
points. -/
def MergesWhere (cs : List Condition) : Prop :=
  (a.contactClauses cs).length = 1 ∧ (∃ c ∈ cs, c.field = "gender")
    ∧ ∃ c ∈ cs, a.collectionOf c = .pointHistories

theorem whereOf_of_mergesWhere (h : a.MergesWhere cs) :
    a.whereOf cs
      = .merged (a.contactClauses cs
          ++ [⟨"merchant_id", .equals (.str a.settings.merchantId)⟩]) := by
  obtain ⟨hone, hgender, hpoints⟩ := h
  have htwo : (a.contactClauses cs
      ++ [(⟨"merchant_id", .equals (.str a.settings.merchantId)⟩ : Clause)]).length = 2 := by
    rw [List.length_append, hone, List.length_singleton]
  rw [whereOf, if_neg (by omega), if_pos ⟨htwo, hgender, hpoints⟩]

theorem ofClauses?_of_not_mergesWhere (h : ¬ a.MergesWhere cs) :
    some (a.whereOf cs)
      = Filter.ofClauses? (a.contactClauses cs
          ++ [⟨"merchant_id", .equals (.str a.settings.merchantId)⟩]) := by
  rw [MergesWhere] at h
  rw [whereOf]
  cases hclauses : a.contactClauses cs with
  | nil => rfl
  | cons p ps =>
      cases ps with
      | nil =>
          rw [hclauses] at h
          rw [if_neg (by simp), if_neg fun hmerged => h ⟨rfl, hmerged.2⟩]
          rfl
      | cons q qs =>
          rw [if_neg (by simp), if_neg (by simp)]
          rfl

theorem whereOf_eq_merged_iff {ps : List Clause} : a.whereOf cs = .merged ps
    ↔ a.MergesWhere cs
      ∧ a.contactClauses cs ++ [⟨"merchant_id", .equals (.str a.settings.merchantId)⟩] = ps := by
  by_cases h : a.MergesWhere cs
  · rw [whereOf_of_mergesWhere a h, Filter.merged.injEq]
    exact (and_iff_right h).symm
  · have hclauses := a.ofClauses?_of_not_mergesWhere h
    refine iff_of_false (fun hmerged => ?_) fun hmerged => h hmerged.1
    rw [hmerged] at hclauses
    exact Filter.ofClauses?_ne_merged _ _ hclauses.symm

/-! ### With the standard tables -/

/-- One condition on contacts, which is on gender and not about an anniversary, beside one on
points. -/
structure GenderBesidePoints (cs : List Condition) (c : Condition) : Prop where
  only : a.onContacts cs = [c]
  gender : c.field = "gender"
  plain : c.isAnniversary = false
  points : ∃ d ∈ cs, a.collectionOf d = .pointHistories

theorem GenderBesidePoints.contactClauses_eq {c : Condition} (h : a.GenderBesidePoints cs c) :
    a.contactClauses cs = [⟨"gender", c.predicate "gender"⟩] := by
  rw [contactClauses, ← onContacts, h.only, List.flatMap_singleton,
    Condition.clauses_of_not_isAnniversary h.plain, h.gender]
  rfl

theorem GenderBesidePoints.mergesWhere {c : Condition} (h : a.GenderBesidePoints cs c) :
    a.MergesWhere cs := by
  have hmem : c ∈ a.onContacts cs := h.only ▸ List.mem_singleton_self c
  refine ⟨?_, ⟨c, List.mem_of_mem_filter hmem, h.gender⟩, h.points⟩
  rw [h.contactClauses_eq, List.length_singleton]

theorem mergesWhere_iff (settings : Settings) : (withStandardTables settings).MergesWhere cs
    ↔ ∃ c, (withStandardTables settings).GenderBesidePoints cs c := by
  constructor
  · rintro ⟨hone, ⟨d, hd, hgender⟩, hpoints⟩
    obtain ⟨c, honly, hplain⟩ := (length_contactClauses_eq_one_iff _).1 hone
    have hmem : d ∈ (withStandardTables settings).onContacts cs :=
      List.mem_filter.2 ⟨hd, decide_eq_true (collectionOf_of_gender settings hgender)⟩
    rw [honly, List.mem_singleton] at hmem
    exact ⟨c, honly, hmem ▸ hgender, hplain, hpoints⟩
  · rintro ⟨c, h⟩
    exact h.mergesWhere

/-- With the standard tables the `where` part is merged exactly if the one condition on contacts is
on gender, and not about an anniversary, and points are joined. It is then written with the two
members that would otherwise have been joined by `and`. -/
theorem merged_iff_genderBesidePoints (settings : Settings) (cs : List Condition) :
    ((∃ ps, ((withStandardTables settings).assemble cs).value.query.filter = some (.merged ps))
        ↔ ∃ c, (withStandardTables settings).GenderBesidePoints cs c)
      ∧ ∀ c, (withStandardTables settings).GenderBesidePoints cs c →
          Filter.ofClauses? ((withStandardTables settings).assemble cs).value.whereClauses
              = some (.and [⟨"gender", c.predicate "gender"⟩,
                  ⟨"merchant_id", .equals (.str settings.merchantId)⟩])
            ∧ ((withStandardTables settings).assemble cs).value.query.toJson.valuesOf "where"
                = [.obj [("gender", (c.predicate "gender").toJson),
                    ("merchant_id", .str settings.merchantId)]] := by
  constructor
  · rw [← mergesWhere_iff]
    simp [filter_assemble, whereOf_eq_merged_iff]
  · intro c hc
    have hclauses := hc.contactClauses_eq
    refine ⟨?_, ?_⟩
    · rw [whereClauses_assemble, hclauses]
      rfl
    · rw [valuesOf_where_assemble, whereOf_of_mergesWhere _ hc.mergesWhere, hclauses]
      rfl

def equalTo (field value : String) : Condition where
  id := field
  dataSource := none
  collection := none
  field := field
  kind := .text
  operator := .equals
  value := .text value
  connective := none
  betweenBounds := none

def pointsOver (n : Nat) : Condition where
  id := "point"
  dataSource := none
  collection := none
  field := "point"
  kind := .number
  operator := .greaterThan
  value := .number (.integer n)
  connective := none
  betweenBounds := none

def femaleWithPoints : List Condition :=
  [equalTo "gender" "female", pointsOver 100]

theorem merged_femaleWithPoints :
    (withStandardTables .standard).GenderBesidePoints femaleWithPoints (equalTo "gender" "female")
      ∧ (∃ ps, ((withStandardTables .standard).assemble femaleWithPoints).value.query.filter
          = some (.merged ps))
      ∧ Filter.ofClauses? ((withStandardTables .standard).assemble femaleWithPoints).value.whereClauses
          = some (.and [⟨"gender", .equals (.str "FEMALE")⟩,
              ⟨"merchant_id", .equals (.str "68468c7bbffca9a0a6b2a413")⟩])
      ∧ ((withStandardTables .standard).assemble femaleWithPoints).value.query.toJson.valuesOf "where"
          = [.obj [("gender", .str "FEMALE"), ("merchant_id", .str "68468c7bbffca9a0a6b2a413")]] := by
  have hgender : (withStandardTables .standard).GenderBesidePoints femaleWithPoints
      (equalTo "gender" "female") := ⟨by decide, rfl, by decide, by decide⟩
  have hpredicate : (equalTo "gender" "female").predicate "gender" = .equals (.str "FEMALE") := by
    decide
  obtain ⟨hiff, hparts⟩ := merged_iff_genderBesidePoints .standard femaleWithPoints
  obtain ⟨hand, hwhere⟩ := hparts _ hgender
  rw [hpredicate] at hand hwhere
  exact ⟨hgender, hiff.2 ⟨_, hgender⟩, hand, hwhere⟩

end Compile.Assembler

end SegmentFlow
