import Mathlib.Logic.IsEmpty.Basic
import SegmentFlow.Json.Flaw
import SegmentFlow.Json.Normal
import SegmentFlow.Json.Writing
import SegmentFlow.Proofs.Dictionary
/-!
# Values in their stored form

A value is stored if bringing it into its stored form changes nothing: all of its objects are
dictionaries, down to the last level. `Tree.normal` makes every value into such a one. The rest
follows a value on its way out of the store: it may be lifted to trees of another kind and set
aside, and none of that loses a part of it.
-/

namespace SegmentFlow

/-- All of the value is in its stored form. -/
def Tree.IsStored {ε : Type} (t : Tree ε) : Prop :=
  t.normal = t

instance : IsEmpty SetAside :=
  ⟨nofun⟩

namespace Tree

variable {ε δ : Type} {items : List (Tree ε)} {members : List (String × Tree ε)}

theorem normalItems_eq_map : normalItems items = items.map normal := by
  induction items with
  | nil => rw [normalItems, List.map_nil]
  | cons t ts ih => rw [normalItems, ih, List.map_cons]

theorem normalMembers_eq_map : normalMembers members = members.map fun m => (m.1, m.2.normal) := by
  induction members with
  | nil => rw [normalMembers, List.map_nil]
  | cons m ms ih => rw [normalMembers, ih, List.map_cons]

theorem normal_arr : (arr items).normal = arr (items.map normal) := by
  rw [normal, normalItems_eq_map]

theorem normal_obj :
    (obj members).normal = obj (Dictionary.ofList (members.map fun m => (m.1, m.2.normal))) := by
  rw [normal, normalMembers_eq_map]

theorem isStored_str (s : String) : (str s : Tree ε).IsStored := by
  rw [IsStored, normal] <;> nofun

theorem isStored_arr_iff : (arr items).IsStored ↔ ∀ t ∈ items, t.IsStored := by
  rw [IsStored, normal_arr, arr.injEq]
  conv_lhs => rw [← List.map_id items, List.map_map]
  exact List.map_inj_left

theorem isStored_obj_iff :
    (obj members).IsStored ↔ Dictionary.Sorted members ∧ ∀ m ∈ members, m.2.IsStored := by
  rw [IsStored, normal_obj, obj.injEq]
  constructor
  · intro h
    have hsorted : Dictionary.Sorted members := h ▸ Dictionary.sorted_ofList
    refine ⟨hsorted, fun m hm => ?_⟩
    have hlookup := (Dictionary.lookup_eq_some_iff hsorted.nodup_names).2 hm
    have hnames : ((members.map fun m => (m.1, m.2.normal)).map Prod.fst).Nodup := by
      rw [List.map_map]
      exact hsorted.nodup_names
    have hnormal : members.lookup m.1 = (members.lookup m.1).map normal := by
      conv_lhs => rw [← h]
      rw [Dictionary.lookup_ofList hnames, Dictionary.lookup_map fun _ => normal]
    rw [hlookup] at hnormal
    exact (Option.some.inj hnormal).symm
  · rintro ⟨hsorted, hmembers⟩
    have hsame : (members.map fun m => (m.1, m.2.normal)) = members := by
      conv_rhs => rw [← List.map_id members]
      exact List.map_congr_left fun m hm => Prod.ext rfl (hmembers m hm)
    rw [hsame, Dictionary.ofList_eq_of_sorted hsorted]

theorem isStored_obj_iff_lookup :
    (obj members).IsStored
      ↔ Dictionary.Sorted members ∧ ∀ n, ∀ t ∈ members.lookup n, t.IsStored := by
  rw [isStored_obj_iff]
  refine and_congr_right fun hsorted => ⟨fun h n t ht => ?_, fun h m hm => ?_⟩
  · exact h (n, t) (Dictionary.mem_of_lookup_eq_some ht)
  · exact h m.1 m.2 ((Dictionary.lookup_eq_some_iff hsorted.nodup_names).2 hm)

mutual

theorem isStored_normal : ∀ t : Tree ε, t.normal.IsStored
  | null | bool _ | num _ | str _ | flaw _ => by rw [normal, IsStored, normal] <;> nofun
  | arr items => by
    rw [normal]
    exact isStored_arr_iff.2 (isStored_of_mem_normalItems items)
  | obj members => by
    rw [normal]
    refine isStored_obj_iff.2 ⟨Dictionary.sorted_ofList, fun m hm => ?_⟩
    exact isStored_of_mem_normalMembers members m (Dictionary.mem_of_mem_ofList hm)

theorem isStored_of_mem_normalItems :
    ∀ items : List (Tree ε), ∀ t ∈ normalItems items, t.IsStored
  | [] => nofun
  | t :: ts => by
    rw [normalItems, List.forall_mem_cons]
    exact ⟨isStored_normal t, isStored_of_mem_normalItems ts⟩

theorem isStored_of_mem_normalMembers :
    ∀ members : List (String × Tree ε), ∀ m ∈ normalMembers members, m.2.IsStored
  | [] => nofun
  | (_, t) :: ms => by
    rw [normalMembers, List.forall_mem_cons]
    exact ⟨isStored_normal t, isStored_of_mem_normalMembers ms⟩

end

/-! ### Lifting and setting aside -/

theorem liftItems_eq_map {items : List Json} :
    (liftItems items : List (Tree ε)) = items.map lift := by
  induction items with
  | nil => rw [liftItems, List.map_nil]
  | cons t ts ih => rw [liftItems, ih, List.map_cons]

theorem liftMembers_eq_map {members : List (String × Json)} :
    (liftMembers members : List (String × Tree ε)) = members.map fun m => (m.1, m.2.lift) := by
  induction members with
  | nil => rw [liftMembers, List.map_nil]
  | cons m ms ih => rw [liftMembers, ih, List.map_cons]

theorem lift_arr {items : List Json} : (lift (arr items) : Tree ε) = arr (items.map lift) := by
  rw [lift, liftItems_eq_map]

theorem lift_obj {members : List (String × Json)} :
    (lift (obj members) : Tree ε) = obj (members.map fun m => (m.1, m.2.lift)) := by
  rw [lift, liftMembers_eq_map]

mutual

theorem lift_self : ∀ t : Json, (lift t : Json) = t
  | null | bool _ | num _ | str _ => by rw [lift]
  | arr items => by rw [lift, liftItems_self items]
  | obj members => by rw [lift, liftMembers_self members]

theorem liftItems_self : ∀ items : List Json, (liftItems items : List Json) = items
  | [] => by rw [liftItems]
  | t :: ts => by rw [liftItems, lift_self t, liftItems_self ts]

theorem liftMembers_self : ∀ members : List (String × Json),
    (liftMembers members : List (String × Json)) = members
  | [] => by rw [liftMembers]
  | (_, t) :: ms => by rw [liftMembers, lift_self t, liftMembers_self ms]

end

mutual

theorem sound_lift : ∀ t : Json, (lift t : Tree ε).sound = .ok (lift t : Tree δ)
  | null | bool _ | num _ | str _ => by rw [lift, lift, sound]
  | arr items => by rw [lift, lift, sound, soundItems_lift items]; rfl
  | obj members => by rw [lift, lift, sound, soundMembers_lift members]; rfl

theorem soundItems_lift : ∀ items : List Json,
    soundItems (liftItems items : List (Tree ε)) = .ok (liftItems items : List (Tree δ))
  | [] => by rw [liftItems, liftItems, soundItems]
  | t :: ts => by
    rw [liftItems, liftItems, soundItems, sound_lift t, soundItems_lift ts]; rfl

theorem soundMembers_lift : ∀ members : List (String × Json),
    soundMembers (liftMembers members : List (String × Tree ε))
      = .ok (liftMembers members : List (String × Tree δ))
  | [] => by rw [liftMembers, liftMembers, soundMembers]
  | (_, t) :: ms => by
    rw [liftMembers, liftMembers, soundMembers, sound_lift t, soundMembers_lift ms]; rfl

end

theorem sound_eq_lift (t : Json) : t.sound = .ok (lift t : Tree δ) := by
  conv_lhs => rw [← lift_self t]
  exact sound_lift t

/-! ### Trees that cannot have a flaw -/

theorem misplaced?_eq_none [Origin ε] [IsEmpty ε] (t : Tree ε) : t.misplaced? = none := by
  cases t with
  | flaw e => exact isEmptyElim e
  | _ => rfl

mutual

theorem skipError?_eq_none [Origin ε] [IsEmpty ε] : ∀ t : Tree ε, t.skipError? = none
  | null | bool _ | num _ | str _ => by rw [skipError?] <;> nofun
  | arr items => by rw [skipError?, skipErrorItems?_eq_none items]
  | obj members => by rw [skipError?, skipErrorMembers?_eq_none members]
  | flaw e => isEmptyElim e

theorem skipErrorItems?_eq_none [Origin ε] [IsEmpty ε] :
    ∀ items : List (Tree ε), skipErrorItems? items = none
  | [] => by rw [skipErrorItems?]
  | t :: ts => by
    rw [skipErrorItems?, skipError?_eq_none t, skipErrorItems?_eq_none ts, Option.or_none]

theorem skipErrorMembers?_eq_none [Origin ε] [IsEmpty ε] :
    ∀ members : List (String × Tree ε), skipErrorMembers? members = none
  | [] => by rw [skipErrorMembers?]
  | (_, t) :: ms => by
    rw [skipErrorMembers?, skipError?_eq_none t, skipErrorMembers?_eq_none ms, Option.or_none]

end

end Tree

end SegmentFlow
