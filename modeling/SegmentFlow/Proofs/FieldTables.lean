import SegmentFlow.FieldTables
/-!
# Which table settles a field

A resolution is one search, and it stops at tables of two kinds: those that list the field, and those
of the collection that the condition names. The search for the owner of a field is the same without a
named collection. So the two agree where the first table that lists the field comes before all tables of
the named collection, and everywhere else the condition has its way.
-/

namespace SegmentFlow.FieldTables

variable {t : FieldTables} {field : String} {table : Collection × List String} {e k : Collection}
  {named : Option Collection}

/-- Of all tables that list the field, the table comes first; those in `before` precede it. -/
structure FirstLists (t : FieldTables) (field : String)
    (before : List (Collection × List String)) (table : Collection × List String) : Prop where
  place : ∃ after, t.tables = before ++ table :: after
  lists : field ∈ table.2
  before_not : ∀ b ∈ before, field ∉ b.2

/-- Some table lists the field, and none of the tables up to the first that does is one of the
collection. -/
def ListsAhead (t : FieldTables) (field : String) (e : Collection) : Prop :=
  ∃ before table, t.FirstLists field before table ∧ ∀ b ∈ before ++ [table], b.1 ≠ e

/-! ### The search -/

/-- The table at which the search for a field stops. -/
def stop? (t : FieldTables) (field : String) (named : Option Collection) :
    Option (Collection × List String) :=
  t.tables.find? fun table => named = some table.1 ∨ field ∈ table.2

theorem owner?_eq : t.owner? field = (t.stop? field none).map Prod.fst := by
  simp only [owner?, stop?, reduceCtorEq, false_or]

/-- What counts of the collection that a condition names is `proper`, which is none if the name is
empty. -/
theorem resolve_eq {proper : Option Collection}
    (hproper : named.filter (fun c => c.name ≠ "") = proper) :
    t.resolve field named
      = ((t.stop? field proper).map Prod.fst).getD (proper.getD t.fallback) := by
  simp only [resolve, stop?, hproper, Bool.decide_or]
  cases t.tables.find? fun table => decide (proper = some table.1) || decide (field ∈ table.2) <;> rfl

/-- The search gets past the named collection exactly where a table that lists the field stops it. -/
theorem stop?_eq_some_iff (hother : named ≠ some table.1) :
    t.stop? field named = some table
      ↔ ∃ before, t.FirstLists field before table ∧ ∀ b ∈ before, named ≠ some b.1 := by
  rw [stop?, List.find?_eq_some_iff_append]
  simp only [decide_eq_true_eq, or_iff_right hother, Bool.not_eq_true', decide_eq_false_iff_not, not_or]
  constructor
  · intro hstop
    obtain ⟨hlists, before, after, hsplit, hbefore⟩ := hstop
    exact ⟨before, ⟨⟨after, hsplit⟩, hlists, fun b hb => (hbefore b hb).2⟩,
      fun b hb => (hbefore b hb).1⟩
  · intro hfirst
    obtain ⟨before, ⟨⟨after, hsplit⟩, hlists, hnot⟩, hbefore⟩ := hfirst
    exact ⟨hlists, before, after, hsplit, fun b hb => ⟨hbefore b hb, hnot b hb⟩⟩

theorem stop?_named_eq_some_iff (hother : table.1 ≠ e) :
    t.stop? field (some e) = some table
      ↔ ∃ before, t.FirstLists field before table ∧ ∀ b ∈ before, b.1 ≠ e := by
  have hne (l : Collection) : some e ≠ some l ↔ l ≠ e := by
    rw [ne_eq, Option.some.injEq, eq_comm]
  rw [stop?_eq_some_iff ((hne _).2 hother)]
  simp only [hne]

theorem owner?_eq_some_iff :
    t.owner? field = some k ↔ ∃ before table, t.FirstLists field before table ∧ table.1 = k := by
  have hunnamed (table : Collection × List String) : none ≠ some table.1 :=
    (Option.some_ne_none _).symm
  rw [owner?_eq, Option.map_eq_some_iff]
  simp only [stop?_eq_some_iff (hunnamed _), ne_eq, reduceCtorEq, not_false_eq_true, implies_true,
    and_true]
  constructor
  · intro howner
    obtain ⟨table, ⟨before, hfirst⟩, hk⟩ := howner
    exact ⟨before, table, hfirst, hk⟩
  · intro howner
    obtain ⟨before, table, hfirst, hk⟩ := howner
    exact ⟨table, ⟨before, hfirst⟩, hk⟩

theorem listsAhead_iff :
    t.ListsAhead field e ↔ ∃ table, t.stop? field (some e) = some table ∧ table.1 ≠ e := by
  constructor
  · intro hahead
    obtain ⟨before, table, hfirst, hothers⟩ := hahead
    have hother : table.1 ≠ e := hothers table (List.mem_append_right _ List.mem_cons_self)
    have hbefore : ∀ b ∈ before, b.1 ≠ e := fun b hb => hothers b (List.mem_append_left _ hb)
    exact ⟨table, (stop?_named_eq_some_iff hother).2 ⟨before, hfirst, hbefore⟩, hother⟩
  · intro hstop
    obtain ⟨table, hstop, hother⟩ := hstop
    obtain ⟨before, hfirst, hbefore⟩ := (stop?_named_eq_some_iff hother).1 hstop
    refine ⟨before, table, hfirst, fun b hb => ?_⟩
    rcases List.mem_append.1 hb with hb | hb
    · exact hbefore b hb
    · rw [List.mem_singleton.1 hb]
      exact hother

instance : Decidable (t.ListsAhead field e) :=
  decidable_of_iff ((t.stop? field (some e)).any (fun table => table.1 ≠ e) = true) <| by
    rw [listsAhead_iff, Option.any_eq_true]
    simp only [decide_eq_true_eq]

/-! ### The priority -/

theorem resolve_of_unnamed (hunnamed : ∀ e ∈ named, e.name = "") :
    t.resolve field named = (t.owner? field).getD t.fallback := by
  have hproper : named.filter (fun c => c.name ≠ "") = none := by
    rw [Option.filter_eq_none_iff]
    intro e he
    simp [hunnamed e he]
  rw [resolve_eq hproper, owner?_eq]
  rfl

theorem resolve_of_named (hname : e.name ≠ "") :
    t.resolve field (some e) = ((t.stop? field (some e)).map Prod.fst).getD e :=
  resolve_eq (by simp [hname])

theorem owner?_of_listsAhead (hname : e.name ≠ "") (hahead : t.ListsAhead field e) :
    t.owner? field = some (t.resolve field (some e)) := by
  obtain ⟨table, hstop, hother⟩ := listsAhead_iff.1 hahead
  obtain ⟨before, hfirst, -⟩ := (stop?_named_eq_some_iff hother).1 hstop
  rw [resolve_of_named hname, hstop]
  exact owner?_eq_some_iff.2 ⟨before, table, hfirst, rfl⟩

theorem resolve_of_not_listsAhead (hname : e.name ≠ "") (hahead : ¬ t.ListsAhead field e) :
    t.resolve field (some e) = e := by
  rw [resolve_of_named hname]
  cases hstop : t.stop? field (some e) with
  | none => rfl
  | some table =>
      apply Decidable.byContradiction
      intro hother
      exact hahead (listsAhead_iff.2 ⟨table, hstop, hother⟩)

/-- A condition that names no collection leaves its field to the owner, or to the fallback if there is
none. One that names a collection, by a name that is not empty, gets that collection, unless a table
lists the field ahead of all tables of the collection: then the owner has it. -/
theorem resolve_by_priority (t : FieldTables) (field : String) (named : Option Collection) :
    ((∀ e ∈ named, e.name = "") → t.resolve field named = (t.owner? field).getD t.fallback)
      ∧ ∀ e ∈ named, e.name ≠ "" →
          (t.ListsAhead field e → t.owner? field = some (t.resolve field named))
            ∧ (¬ t.ListsAhead field e → t.resolve field named = e) := by
  refine ⟨resolve_of_unnamed, ?_⟩
  intro e he hname
  obtain rfl := Option.mem_def.1 he
  exact ⟨owner?_of_listsAhead hname, resolve_of_not_listsAhead hname⟩

/-- Points have two tables, one on either side of the shop and of the orders. -/
def overlapping : FieldTables where
  tables :=
    [(.contacts, ["email"]), (.pointHistories, ["point", "id"]), (.other "shop", ["id", "sku"]),
      (.orders, ["id", "total"]), (.pointHistories, ["total"])]
  fallback := .products

/-- The owner wins over a table behind its own and loses to one ahead of it; an empty name does not
count. -/
theorem resolve_by_priority_overlapping :
    (overlapping.ListsAhead "id" (.other "shop")
        ∧ overlapping.owner? "id" = some (overlapping.resolve "id" (some (.other "shop")))
        ∧ overlapping.resolve "id" (some (.other "shop")) = .pointHistories)
      ∧ (¬ overlapping.ListsAhead "total" .pointHistories
        ∧ overlapping.resolve "total" (some .pointHistories) = .pointHistories
        ∧ overlapping.owner? "total" = some .orders)
      ∧ overlapping.resolve "email" (some (.other "")) = .contacts
      ∧ overlapping.resolve "size" (some (.other "")) = .products := by
  have hahead : overlapping.ListsAhead "id" (.other "shop") := by decide
  have hbehind : ¬ overlapping.ListsAhead "total" .pointHistories := by decide
  refine ⟨⟨hahead, ?_, by decide⟩, ⟨hbehind, ?_, by decide⟩, ?_, ?_⟩
  · exact ((overlapping.resolve_by_priority "id" _).2 _ rfl (by decide)).1 hahead
  · exact ((overlapping.resolve_by_priority "total" _).2 _ rfl (by decide)).2 hbehind
  · exact (overlapping.resolve_by_priority "email" _).1 (by decide)
  · exact (overlapping.resolve_by_priority "size" _).1 (by decide)

end SegmentFlow.FieldTables
