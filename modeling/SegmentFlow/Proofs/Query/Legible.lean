import SegmentFlow.Proofs.Json.Members
import SegmentFlow.Proofs.Query.Joins
import SegmentFlow.Proofs.Query.Merging
import SegmentFlow.Query.Document
/-!
# Legible queries

The grammar of the store puts names of its own (`and`, the parts of a query, the comparisons) into
the same objects as the names of fields and collections, so not every query can be read back from
what is written. A query is legible if no such name is taken for another: no clause that stands
alone is on a field `and`, a merged filter has two fields at least and repeats none, a value is not
an object, and no join is named like a part of the query. A legible query is written without
repeated members, and two legible queries are never written alike.
-/

namespace SegmentFlow

/-- A value without an object in it. -/
def Tree.Plain {ε : Type} : Tree ε → Prop
  | arr items => ∀ t ∈ items, ∃ s, t = str s
  | obj _ => False
  | _ => True

theorem Tree.Plain.noRepeats {ε : Type} {t : Tree ε} (hplain : t.Plain) : t.NoRepeats := by
  cases t with
  | arr items =>
      refine noRepeats_arr_iff.2 fun t ht => ?_
      obtain ⟨s, rfl⟩ := hplain t ht
      exact noRepeats_str s
  | obj members => exact hplain.elim
  | _ => simp [NoRepeats]

theorem Tree.Plain.ne_obj {ε : Type} {t : Tree ε} (hplain : t.Plain)
    (members : List (String × Tree ε)) : t ≠ obj members := by
  rintro rfl
  exact hplain

namespace Query

/-! ### Lists and options that are written item by item -/

section Writing

variable {α β : Type} {P : α → Prop} {write : α → β}

private theorem eq_of_map_eq_map (hwrite : ∀ x y, P x → P y → write x = write y → x = y) :
    ∀ {xs ys : List α}, (∀ x ∈ xs, P x) → (∀ y ∈ ys, P y) → xs.map write = ys.map write → xs = ys
  | [], [], _, _, _ => rfl
  | x :: xs, y :: ys, hxs, hys, h => by
      rw [List.forall_mem_cons] at hxs hys
      rw [List.map_cons, List.map_cons, List.cons.injEq] at h
      rw [hwrite x y hxs.1 hys.1 h.1, eq_of_map_eq_map hwrite hxs.2 hys.2 h.2]

private theorem eq_of_option_map_eq (hwrite : ∀ x y, P x → P y → write x = write y → x = y)
    {x y : Option α} (hx : ∀ a ∈ x, P a) (hy : ∀ b ∈ y, P b) (h : x.map write = y.map write) :
    x = y := by
  cases x with
  | none => exact (Option.map_eq_none_iff.1 h.symm).symm
  | some a =>
      obtain ⟨b, rfl, hb⟩ := Option.map_eq_some_iff.1 h.symm
      rw [hwrite a b (hx a rfl) (hy b rfl) hb.symm]

end Writing

/-! ### Predicates and clauses -/

theorem Comparison.ofSymbol?_symbol (c : Comparison) : ofSymbol? c.symbol = some c := by
  cases c <;> decide

theorem Comparison.symbol_injective {c d : Comparison} (h : c.symbol = d.symbol) : c = d := by
  have hread := c.ofSymbol?_symbol
  rw [h, d.ofSymbol?_symbol] at hread
  exact (Option.some.inj hread).symm

theorem DatePart.ofName?_name (p : DatePart) : ofName? p.name = some p := by
  cases p <;> decide

theorem DatePart.name_injective {p q : DatePart} (h : p.name = q.name) : p = q := by
  have hread := p.ofName?_name
  rw [h, q.ofName?_name] at hread
  exact (Option.some.inj hread).symm

theorem Comparison.symbol_ne_name (c : Comparison) (p : DatePart) : c.symbol ≠ p.name := by
  cases c <;> cases p <;> decide

def Predicate.Legible : Predicate → Prop
  | equals value => value.Plain
  | compare _ operand => operand.Plain
  | occurs _ => True

def Clause.Legible (c : Clause) : Prop :=
  c.predicate.Legible

namespace Predicate

theorem noRepeats_toJson {p : Predicate} (hp : p.Legible) : p.toJson.NoRepeats := by
  cases p with
  | equals value => exact hp.noRepeats
  | compare comparison operand => exact Tree.noRepeats_obj_singleton.2 hp.noRepeats
  | occurs part => exact Tree.noRepeats_obj_singleton.2 (by simp [Tree.NoRepeats])

theorem toJson_injective {p q : Predicate} (hp : p.Legible) (hq : q.Legible)
    (h : p.toJson = q.toJson) : p = q := by
  cases p with
  | equals v =>
      cases q with
      | equals w => exact congrArg equals h
      | compare d w => exact absurd h (Tree.Plain.ne_obj hp _)
      | occurs s => exact absurd h (Tree.Plain.ne_obj hp _)
  | compare c v =>
      cases q with
      | equals w => exact absurd h.symm (Tree.Plain.ne_obj hq _)
      | compare d w =>
          obtain ⟨hsymbol, hoperand⟩ := Tree.obj_singleton_inj.1 h
          rw [Comparison.symbol_injective hsymbol, hoperand]
      | occurs s => exact absurd (Tree.obj_singleton_inj.1 h).1 (c.symbol_ne_name s)
  | occurs r =>
      cases q with
      | equals w => exact absurd h.symm (Tree.Plain.ne_obj hq _)
      | compare d w => exact absurd (Tree.obj_singleton_inj.1 h).1.symm (d.symbol_ne_name r)
      | occurs s => rw [DatePart.name_injective (Tree.obj_singleton_inj.1 h).1]

end Predicate

namespace Clause

/-- What a clause is written as inside an object. -/
def member (c : Clause) : String × Json :=
  (c.field, c.predicate.toJson)

theorem member_injective {c d : Clause} (hc : c.Legible) (hd : d.Legible)
    (h : c.member = d.member) : c = d := by
  obtain ⟨hfield, hpredicate⟩ := Prod.mk.inj h
  cases c
  cases d
  simp only [mk.injEq]
  exact ⟨hfield, Predicate.toJson_injective hc hd hpredicate⟩

theorem toJson_injective {c d : Clause} (hc : c.Legible) (hd : d.Legible)
    (h : c.toJson = d.toJson) : c = d := by
  obtain ⟨hfield, hpredicate⟩ := Tree.obj_singleton_inj.1 h
  exact member_injective hc hd (Prod.ext hfield hpredicate)

theorem noRepeats_toJson {c : Clause} (hc : c.Legible) : c.toJson.NoRepeats :=
  Tree.noRepeats_obj_singleton.2 (Predicate.noRepeats_toJson hc)

end Clause

/-! ### Filters

The number of members tells a merged filter from the two other forms, and the name `and` tells
those apart. -/

def Filter.Legible : Filter → Prop
  | clause c => c.field ≠ "and" ∧ c.Legible
  | merged cs => 2 ≤ cs.length ∧ (cs.map Clause.field).Nodup ∧ ∀ c ∈ cs, c.Legible
  | and cs => ∀ c ∈ cs, c.Legible

namespace Filter

theorem toJson_merged {cs : List Clause} (hnodup : (cs.map Clause.field).Nodup) :
    (merged cs).toJson = .obj (cs.map Clause.member) := by
  rw [toJson, flatten_of_nodup hnodup]
  rfl

/-- A merged filter is never written with a single member. -/
theorem toJson_merged_ne {cs : List Clause} (hcs : (merged cs).Legible) (m : String × Json) :
    (merged cs).toJson ≠ .obj [m] := by
  obtain ⟨htwo, hnodup, -⟩ := hcs
  intro h
  rw [toJson_merged hnodup, Tree.obj.injEq] at h
  have hlength := congrArg List.length h
  rw [List.length_map, List.length_singleton] at hlength
  omega

theorem noRepeats_toJson {f : Filter} (hf : f.Legible) : f.toJson.NoRepeats := by
  cases f with
  | clause c => exact Clause.noRepeats_toJson hf.2
  | merged cs =>
      obtain ⟨-, hnodup, hcs⟩ := hf
      rw [toJson_merged hnodup]
      refine Tree.noRepeats_obj_iff.2 ⟨?_, fun m hm => ?_⟩
      · rw [List.map_map]
        exact hnodup
      · obtain ⟨c, hc, rfl⟩ := List.mem_map.1 hm
        exact Predicate.noRepeats_toJson (hcs c hc)
  | and cs =>
      refine Tree.noRepeats_obj_singleton.2 (Tree.noRepeats_arr_iff.2 fun t ht => ?_)
      obtain ⟨c, hc, rfl⟩ := List.mem_map.1 ht
      exact Clause.noRepeats_toJson (hf c hc)

theorem toJson_injective {f g : Filter} (hf : f.Legible) (hg : g.Legible)
    (h : f.toJson = g.toJson) : f = g := by
  cases f with
  | clause c =>
      cases g with
      | clause d => exact congrArg clause (Clause.toJson_injective hf.2 hg.2 h)
      | merged ds => exact absurd h.symm (toJson_merged_ne hg _)
      | and ds => exact absurd (Tree.obj_singleton_inj.1 h).1 hf.1
  | merged cs =>
      cases g with
      | clause d => exact absurd h (toJson_merged_ne hf _)
      | merged ds =>
          obtain ⟨-, hnodup, hcs⟩ := hf
          obtain ⟨-, hnodup', hds⟩ := hg
          rw [toJson_merged hnodup, toJson_merged hnodup', Tree.obj.injEq] at h
          exact congrArg merged (eq_of_map_eq_map (fun _ _ => Clause.member_injective) hcs hds h)
      | and ds => exact absurd h (toJson_merged_ne hf _)
  | and cs =>
      cases g with
      | clause d => exact absurd (Tree.obj_singleton_inj.1 h).1.symm hg.1
      | merged ds => exact absurd h.symm (toJson_merged_ne hg _)
      | and ds =>
          have hitems := Tree.arr.inj (Tree.obj_singleton_inj.1 h).2
          exact congrArg and (eq_of_map_eq_map (fun _ _ => Clause.toJson_injective) hf hg hitems)

end Filter

/-! ### The parts of a query

A query and a joined one start with the same four parts, of which all but the first may be left
out. What comes after them is under other names. -/

section Parts

def partNames : List String := ["select", "where", "group_by", "having"]

def partMembers (select : List String) (filter : Option Filter) (groupBy : Option (List String))
    (having : Option Filter) : List (String × Json) :=
  ("select", Tree.ofTexts select)
    :: optionalMember "where" Filter.toJson filter
    ++ optionalMember "group_by" Tree.ofTexts groupBy
    ++ optionalMember "having" Filter.toJson having

variable {select select' : List String} {filter filter' having having' : Option Filter}
  {groupBy groupBy' : Option (List String)} {rest rest' : List (String × Json)}

theorem names_partMembers_sublist :
    ((partMembers select filter groupBy having).map Prod.fst).Sublist partNames := by
  cases filter <;> cases groupBy <;> cases having <;>
    simp [partMembers, optionalMember, partNames]

theorem noRepeats_parts (hfilter : ∀ f ∈ filter, f.Legible) (hhaving : ∀ f ∈ having, f.Legible)
    (hnodup : (rest.map Prod.fst).Nodup) (hnames : ∀ n ∈ partNames, n ∉ rest.map Prod.fst)
    (hrest : ∀ m ∈ rest, m.2.NoRepeats) :
    (Tree.obj (partMembers select filter groupBy having ++ rest)).NoRepeats := by
  have hparts : ((partMembers select filter groupBy having).map Prod.fst).Sublist partNames :=
    names_partMembers_sublist
  rw [Tree.noRepeats_obj_iff, List.map_append]
  constructor
  · refine List.Nodup.append (hparts.nodup (by decide)) hnodup fun n hn => ?_
    exact hnames n (hparts.subset hn)
  · simp only [partMembers, List.cons_append, List.append_assoc, List.forall_mem_cons,
      List.forall_mem_append, forall_mem_optionalMember]
    exact ⟨Tree.noRepeats_ofTexts select, fun f hf => Filter.noRepeats_toJson (hfilter f hf),
      fun columns _ => Tree.noRepeats_ofTexts columns,
      fun f hf => Filter.noRepeats_toJson (hhaving f hf), hrest⟩

theorem parts_injective (hfilter : ∀ f ∈ filter, f.Legible) (hfilter' : ∀ f ∈ filter', f.Legible)
    (hhaving : ∀ f ∈ having, f.Legible) (hhaving' : ∀ f ∈ having', f.Legible)
    (hnames : ∀ n ∈ partNames, n ∉ rest.map Prod.fst)
    (hnames' : ∀ n ∈ partNames, n ∉ rest'.map Prod.fst)
    (h : partMembers select filter groupBy having ++ rest
      = partMembers select' filter' groupBy' having' ++ rest') :
    select = select' ∧ filter = filter' ∧ groupBy = groupBy' ∧ having = having' ∧ rest = rest' := by
  simp only [partNames, List.forall_mem_cons] at hnames hnames'
  obtain ⟨-, hwhere, hgroup, hhave, -⟩ := hnames
  obtain ⟨-, hwhere', hgroup', hhave', -⟩ := hnames'
  simp only [partMembers, List.cons_append, List.append_assoc, List.cons.injEq, Prod.mk.injEq,
    true_and] at h
  obtain ⟨hselect, h⟩ := h
  obtain ⟨hfilters, h⟩ := optionalMember_append_inj
    (not_mem_names_optionalMember_append (by decide)
      (not_mem_names_optionalMember_append (by decide) hwhere))
    (not_mem_names_optionalMember_append (by decide)
      (not_mem_names_optionalMember_append (by decide) hwhere')) h
  obtain ⟨hgroups, h⟩ := optionalMember_append_inj
    (not_mem_names_optionalMember_append (by decide) hgroup)
    (not_mem_names_optionalMember_append (by decide) hgroup') h
  obtain ⟨hhavings, hrest⟩ := optionalMember_append_inj hhave hhave' h
  exact ⟨Tree.ofTexts_injective hselect,
    eq_of_option_map_eq (fun _ _ => Filter.toJson_injective) hfilter hfilter' hfilters,
    (Option.map_inj_right fun _ _ => Tree.ofTexts_injective).1 hgroups,
    eq_of_option_map_eq (fun _ _ => Filter.toJson_injective) hhaving hhaving' hhavings, hrest⟩

end Parts

/-! ### Queries -/

structure JoinEntry.Legible (entry : JoinEntry) : Prop where
  filter : ∀ f ∈ entry.filter, f.Legible
  having : ∀ f ∈ entry.having, f.Legible

namespace JoinEntry

private theorem partNames_ne_join (join : String) :
    ∀ n ∈ partNames, n ∉ ([("join", .str join)] : List (String × Json)).map Prod.fst := by
  change ∀ n ∈ partNames, n ∉ ["join"]
  decide

theorem noRepeats_toJson {entry : JoinEntry} (hentry : entry.Legible) :
    entry.toJson.NoRepeats := by
  refine noRepeats_parts hentry.filter hentry.having (List.nodup_singleton _)
    (partNames_ne_join entry.join) ?_
  exact List.forall_mem_singleton.2 (Tree.noRepeats_str entry.join)

theorem toJson_injective {entry entry' : JoinEntry} (hentry : entry.Legible)
    (hentry' : entry'.Legible) (h : entry.toJson = entry'.toJson) : entry = entry' := by
  obtain ⟨hselect, hfilter, hgroupBy, hhaving, hjoin⟩ := parts_injective hentry.filter
    hentry'.filter hentry.having hentry'.having (partNames_ne_join entry.join)
    (partNames_ne_join entry'.join) (Tree.obj.inj h)
  simp only [List.cons.injEq, Prod.mk.injEq, Tree.str.injEq, true_and, and_true] at hjoin
  cases entry
  cases entry'
  simp only [mk.injEq]
  exact ⟨hselect, hfilter, hgroupBy, hhaving, hjoin⟩

end JoinEntry

structure CollectionQuery.Legible (q : CollectionQuery) : Prop where
  filter : ∀ f ∈ q.filter, f.Legible
  having : ∀ f ∈ q.having, f.Legible
  joins : ∀ e ∈ q.joins.entries, e.2.Legible
  nodup : q.joins.names.Nodup
  names : ∀ n ∈ partNames, n ∉ q.joins.names

namespace CollectionQuery

variable {q q' : CollectionQuery}

private def joinMember (e : String × JoinEntry) : String × Json :=
  (e.1, e.2.toJson)

private theorem names_joinMembers (q : CollectionQuery) :
    (q.joins.entries.map joinMember).map Prod.fst = q.joins.names := by
  rw [List.map_map]
  rfl

theorem noRepeats_toJson (hq : q.Legible) : q.toJson.NoRepeats := by
  have hnames := names_joinMembers q
  refine noRepeats_parts hq.filter hq.having (hnames ▸ hq.nodup) (hnames ▸ hq.names) fun m hm => ?_
  obtain ⟨e, he, rfl⟩ := List.mem_map.1 hm
  exact JoinEntry.noRepeats_toJson (hq.joins e he)

theorem toJson_injective (hq : q.Legible) (hq' : q'.Legible) (h : q.toJson = q'.toJson) :
    q = q' := by
  obtain ⟨hselect, hfilter, hgroupBy, hhaving, hjoins⟩ := parts_injective hq.filter hq'.filter
    hq.having hq'.having (names_joinMembers q ▸ hq.names) (names_joinMembers q' ▸ hq'.names)
    (Tree.obj.inj h)
  have hentry : ∀ e e' : String × JoinEntry, e.2.Legible → e'.2.Legible →
      joinMember e = joinMember e' → e = e' := fun e e' he he' heq => by
    rw [joinMember, joinMember, Prod.mk.injEq] at heq
    exact Prod.ext heq.1 (JoinEntry.toJson_injective he he' heq.2)
  have hentries := eq_of_map_eq_map hentry hq.joins hq'.joins hjoins
  cases q
  cases q'
  simp only [mk.injEq]
  exact ⟨hselect, hfilter, hgroupBy, hhaving, congrArg Joins.mk hentries⟩

end CollectionQuery

namespace Document

variable {d d' : Document}

theorem noRepeats_toJson (hd : d.query.Legible) : d.toJson.NoRepeats :=
  Tree.noRepeats_obj_singleton.2 (CollectionQuery.noRepeats_toJson hd)

theorem toJson_inj (hd : d.query.Legible) (hd' : d'.query.Legible) :
    d.toJson = d'.toJson ↔ d = d' := by
  refine ⟨fun h => ?_, fun h => h ▸ rfl⟩
  obtain ⟨hcollection, hquery⟩ := Tree.obj_singleton_inj.1 h
  cases d
  cases d'
  simp only [mk.injEq]
  exact ⟨hcollection, CollectionQuery.toJson_injective hd hd' hquery⟩

end Document

end Query

end SegmentFlow
