import SegmentFlow.Proofs.Compile.ClosedForm
/-!
# What assembling tells

Two things about a condition are told: that it was left out, and that its join takes the place of a
plain one. The first is seen from the condition alone. The second hangs on what came before it, and it
is told once at most: of the first condition on the date on which points expire, and only if points
were joined by then. `told` says this from the conditions before, without the state of the walk, and the
walk tells of its conditions one after another what `told` says of each.
-/

namespace SegmentFlow.Compile

open Query (JoinEntry)

namespace Assembler

variable (a : Assembler)

/-- The condition is the first that asks for expiring points, and points were asked for before it. -/
structure ReplacesJoin (before : List Condition) (c : Condition) : Prop where
  expiring : a.asksForExpiring c = true
  first : ∀ b ∈ before, a.asksForExpiring b = false
  joined : ∃ b ∈ before, a.collectionOf b = .pointHistories

instance (before : List Condition) (c : Condition) : Decidable (a.ReplacesJoin before c) :=
  decidable_of_iff (a.asksForExpiring c = true ∧ (∀ b ∈ before, a.asksForExpiring b = false)
      ∧ ∃ b ∈ before, a.collectionOf b = .pointHistories)
    ⟨fun ⟨hexpiring, hfirst, hjoined⟩ => ⟨hexpiring, hfirst, hjoined⟩,
      fun h => ⟨h.expiring, h.first, h.joined⟩⟩

/-- What is told of a condition that is left out. -/
def toldOfSkipped (c : Condition) : List Event :=
  if a.collectionOf c ∈ [Collection.contacts, .orders, .pointHistories] then []
  else [.conditionSkipped c.id (a.collectionOf c).name c.field]

/-- What is told of a condition that comes after the others. -/
def told (before : List Condition) (c : Condition) : List Event :=
  a.toldOfSkipped c
    ++ if a.ReplacesJoin before c then [.expiringJoinReplaces "point_histories"] else []

/-- What is told of all conditions, each after those before it. -/
def toldInOrder (cs : List Condition) : List Event :=
  cs.zipIdx.flatMap fun (c, i) => a.told (cs.take i) c

theorem toldInOrder_append (cs : List Condition) (c : Condition) :
    a.toldInOrder (cs ++ [c]) = a.toldInOrder cs ++ a.told cs c := by
  have hbefore : ∀ p ∈ cs.zipIdx, a.told ((cs ++ [c]).take p.2) p.1 = a.told (cs.take p.2) p.1 := by
    intro p hp
    rw [List.take_append_of_le_length (Nat.le_of_lt (List.snd_lt_of_mem_zipIdx hp))]
  rw [toldInOrder, toldInOrder, List.zipIdx_append, List.flatMap_append, List.flatMap_congr hbefore]
  simp

end Assembler

/-! ### One condition -/

namespace Assembly

variable (a : Assembler) (s : Assembly) (c : Condition)

@[simp] theorem events_join (k : Collection) (entry : JoinEntry) :
    (s.join k entry).events = s.events := by
  unfold join
  split <;> rfl

@[simp] theorem expiring_join (k : Collection) (entry : JoinEntry) :
    (s.join k entry).expiring = s.expiring := by
  unfold join
  split <;> rfl

theorem expiring_add : (add a s c).expiring = (s.expiring || a.asksForExpiring c) := by
  cases a.routed c with
  | contacts hk => simp [add_contacts s hk, Assembler.asksForExpiring, hk]
  | orders hk => simp [add_orders s hk, having, Assembler.asksForExpiring, hk]
  | expiring hk hfield =>
      simp [add_expiring s hk hfield, joinExpiring, Assembler.asksForExpiring, hk, hfield]
  | points hk hfield => simp [add_points s hk hfield, having, Assembler.asksForExpiring, hk, hfield]
  | skipped hcontacts horders hpoints =>
      simp [add_skipped s hcontacts horders hpoints, Assembler.asksForExpiring, hpoints]

/-- Points are joined, but not for the sake of those that expire. -/
def JoinsPlainPoints : Prop :=
  s.joins.contains Collection.pointHistories.name = true ∧ s.expiring = false

instance : Decidable s.JoinsPlainPoints :=
  inferInstanceAs (Decidable (_ ∧ _))

theorem events_joinExpiring (entry : JoinEntry) :
    (s.joinExpiring .pointHistories entry).events
      = s.events ++ if s.JoinsPlainPoints then [.expiringJoinReplaces "point_histories"] else [] := by
  have hplain : (s.joins.contains Collection.pointHistories.name && !s.expiring) = true
      ↔ s.JoinsPlainPoints := by
    rw [Bool.and_eq_true, Bool.not_eq_true', JoinsPlainPoints]
  simp only [joinExpiring, hplain]
  split
  · rfl
  · rw [List.append_nil]

theorem events_add :
    (add a s c).events
      = s.events
        ++ (a.toldOfSkipped c
          ++ if a.asksForExpiring c = true ∧ s.JoinsPlainPoints then
              [.expiringJoinReplaces "point_histories"] else []) := by
  cases a.routed c with
  | contacts hk =>
      simp [add_contacts s hk, Assembler.toldOfSkipped, Assembler.asksForExpiring, hk]
  | orders hk =>
      simp [add_orders s hk, having, Assembler.toldOfSkipped, Assembler.asksForExpiring, hk]
  | expiring hk hfield =>
      simp [add_expiring s hk hfield, events_joinExpiring, Assembler.toldOfSkipped,
        Assembler.asksForExpiring, hk, hfield]
  | points hk hfield =>
      simp [add_points s hk hfield, having, Assembler.toldOfSkipped, Assembler.asksForExpiring, hk,
        hfield]
  | skipped hcontacts horders hpoints =>
      simp [add_skipped s hcontacts horders hpoints, Assembler.toldOfSkipped,
        Assembler.asksForExpiring, hcontacts, horders, hpoints]

end Assembly

/-! ### The whole walk -/

namespace Assembler

variable (a : Assembler)

theorem expiring_gather (cs : List Condition) :
    (a.gather cs).expiring = cs.any a.asksForExpiring := by
  induction cs using List.reverseRecOn with
  | nil => rfl
  | append_singleton cs c ih =>
      rw [gather_append, Assembly.expiring_add, ih, List.any_append]
      simp

theorem joinsPlainPoints_gather (cs : List Condition) :
    (a.gather cs).JoinsPlainPoints
      ↔ (∃ b ∈ cs, a.collectionOf b = .pointHistories) ∧ ∀ b ∈ cs, a.asksForExpiring b = false := by
  rw [Assembly.JoinsPlainPoints, contains_points_gather, expiring_gather, List.any_eq_false]
  simp only [Bool.not_eq_true]

theorem events_gather (cs : List Condition) : (a.gather cs).events = a.toldInOrder cs := by
  induction cs using List.reverseRecOn with
  | nil => rfl
  | append_singleton cs c ih =>
      have hreplaces : a.asksForExpiring c = true ∧ (a.gather cs).JoinsPlainPoints
          ↔ a.ReplacesJoin cs c := by
        rw [joinsPlainPoints_gather]
        exact ⟨fun ⟨hexpiring, hjoined, hfirst⟩ => ⟨hexpiring, hfirst, hjoined⟩,
          fun h => ⟨h.expiring, h.joined, h.first⟩⟩
      rw [gather_append, Assembly.events_add, ih, toldInOrder_append, told]
      simp only [hreplaces]

/-- The second condition is left out, and the third takes the join over from the first; the fourth
replaces the join too, but not a plain one. -/
example :
    (standard.assemble
        [⟨"c1", none, none, "point", .number, .greaterThan, .number (.integer 10), none, none⟩,
          ⟨"c2", none, some .products, "sku", .text, .equals, .text "x", none, none⟩,
          ⟨"c3", none, none, "expire_date", .date .specific, .dateAfter, .text "today", none, none⟩,
          ⟨"c4", none, none, "expire_date", .date .specific, .isNotEmpty, .text "", none,
            none⟩]).events.map Event.message
      = ["No assembly path for collection; condition skipped",
        "Expiring-points sub-query replaces the aggregate join", "Assembled query document"] := by
  decide +kernel

end Assembler

end SegmentFlow.Compile
