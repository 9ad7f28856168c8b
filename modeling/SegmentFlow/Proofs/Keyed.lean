import Mathlib.Data.List.Induction
import Mathlib.Data.List.Nodup
/-!
# Lists with one element for each key

Both the joins of a query and the members of a merged filter are built by the same operation: an
element is put in the place of the one with its key, and last if there is none. What that keeps and
what it changes is said here once, through two views: the keys in order, and the element of a key.
As long as no key repeats, the two views together give the list back.
-/

namespace SegmentFlow.Keyed

variable {α κ : Type} [DecidableEq κ] (key : α → κ)

/-- The list with `x` in the place of the element with its key, or else last. -/
def put (x : α) : List α → List α
  | [] => [x]
  | y :: ys => if key y = key x then x :: ys else y :: put x ys

/-- The first element with a key. -/
def get? (k : κ) (ys : List α) : Option α :=
  ys.find? fun y => key y = k

theorem map_key_put (x : α) (ys : List α) :
    (put key x ys).map key
      = if key x ∈ ys.map key then ys.map key else ys.map key ++ [key x] := by
  induction ys with
  | nil => rfl
  | cons y ys ih =>
      by_cases hhead : key y = key x
      · simp [put, hhead]
      · have hmem : key x ∈ (y :: ys).map key ↔ key x ∈ ys.map key := by simp [Ne.symm hhead]
        rw [put, if_neg hhead, List.map_cons, ih]
        by_cases htail : key x ∈ ys.map key
        · rw [if_pos htail, if_pos (hmem.2 htail), List.map_cons]
        · rw [if_neg htail, if_neg fun h => htail (hmem.1 h), List.map_cons, List.cons_append]

theorem get?_put (k : κ) (x : α) (ys : List α) :
    get? key k (put key x ys) = if k = key x then some x else get? key k ys := by
  induction ys with
  | nil =>
      by_cases hk : k = key x
      · simp [put, get?, hk]
      · simp [put, get?, hk, Ne.symm hk]
  | cons y ys ih =>
      simp only [get?] at ih ⊢
      by_cases hhead : key y = key x
      · rw [put, if_pos hhead]
        by_cases hk : k = key x
        · simp [hk]
        · simp [hk, Ne.symm hk, hhead]
      · rw [put, if_neg hhead, List.find?_cons, List.find?_cons, ih]
        by_cases hy : key y = k
        · simp [hy, hy ▸ hhead]
        · simp [hy]

/-- An element with another key stays where it is. -/
theorem getElem?_put_of_ne {x y : α} (hne : key y ≠ key x) (ys : List α) (i : Nat) :
    (put key x ys)[i]? = some y ↔ ys[i]? = some y := by
  have hxy : x ≠ y := fun heq => hne (congrArg key heq).symm
  induction ys generalizing i with
  | nil => cases i <;> simp [put, hxy]
  | cons z zs ih =>
      by_cases hhead : key z = key x
      · have hzy : z ≠ y := fun heq => hne (heq ▸ hhead)
        rw [put, if_pos hhead]
        cases i with
        | zero => simp [hxy, hzy]
        | succ i => rfl
      · rw [put, if_neg hhead]
        cases i with
        | zero => rfl
        | succ i => exact ih i

theorem nodup_put {ys : List α} (x : α) (hnodup : (ys.map key).Nodup) :
    ((put key x ys).map key).Nodup := by
  rw [map_key_put]
  split
  · exact hnodup
  · rename_i hnew
    rw [← List.concat_eq_append]
    exact hnodup.concat hnew

theorem put_of_not_mem {x : α} {ys : List α} (hnew : key x ∉ ys.map key) :
    put key x ys = ys ++ [x] := by
  induction ys with
  | nil => rfl
  | cons y ys ih =>
      rw [List.map_cons, List.mem_cons, not_or] at hnew
      rw [put, if_neg (Ne.symm hnew.1), ih hnew.2, List.cons_append]

theorem get?_isSome_iff {k : κ} {ys : List α} :
    (get? key k ys).isSome = true ↔ k ∈ ys.map key := by
  simp [get?]

theorem get?_eq_none_iff {k : κ} {ys : List α} : get? key k ys = none ↔ k ∉ ys.map key := by
  rw [← Option.not_isSome_iff_eq_none, get?_isSome_iff]

theorem key_of_get?_eq_some {k : κ} {x : α} {ys : List α} (hget : get? key k ys = some x) :
    key x = k := by
  simpa using List.find?_some hget

/-- The elements with a key are the one that the key gets. -/
theorem filter_key_eq {ys : List α} (hnodup : (ys.map key).Nodup) (k : κ) :
    ys.filter (fun y => key y = k) = (get? key k ys).toList := by
  induction ys with
  | nil => rfl
  | cons y ys ih =>
      rw [List.map_cons, List.nodup_cons] at hnodup
      have htail := ih hnodup.2
      simp only [get?] at htail ⊢
      by_cases hy : key y = k
      · have hnone : ys.find? (fun y => key y = k) = none := by
          refine List.find?_eq_none.2 fun z hz hzk => hnodup.1 ?_
          rw [hy, ← of_decide_eq_true hzk]
          exact List.mem_map_of_mem hz
        rw [hnone] at htail
        simp [hy, htail]
      · simp [hy, htail]

theorem get?_of_mem {x : α} {ys : List α} (hnodup : (ys.map key).Nodup) (hx : x ∈ ys) :
    get? key (key x) ys = some x := by
  have hmem : x ∈ ys.filter fun y => key y = key x := List.mem_filter.2 ⟨hx, decide_eq_true rfl⟩
  rw [filter_key_eq key hnodup] at hmem
  exact Option.mem_toList.1 hmem

/-- The keys and what they get give the list back. -/
theorem eq_filterMap_get? {ys : List α} (hnodup : (ys.map key).Nodup) :
    ys = (ys.map key).filterMap fun k => get? key k ys := by
  induction ys with
  | nil => rfl
  | cons y ys ih =>
      rw [List.map_cons, List.nodup_cons] at hnodup
      have htail : (ys.map key).filterMap (fun k => get? key k (y :: ys)) = ys := by
        refine Eq.trans (List.filterMap_congr fun k hk => ?_) (ih hnodup.2).symm
        have hne : key y ≠ k := fun heq => hnodup.1 (heq ▸ hk)
        simp [get?, hne]
      rw [List.map_cons, List.filterMap_cons, htail]
      simp [get?]

/-! ### Many elements, one after another -/

theorem eraseDups_append_singleton {β : Type} [DecidableEq β] (xs : List β) (x : β) :
    (xs ++ [x]).eraseDups = if x ∈ xs then xs.eraseDups else xs.eraseDups ++ [x] := by
  rw [List.eraseDups_append]
  by_cases hmem : x ∈ xs <;> simp [List.removeAll, List.eraseDups_cons, hmem]

/-- The elements put into the empty list in their order. -/
def putAll (xs : List α) : List α :=
  xs.foldl (fun ys x => put key x ys) []

theorem putAll_append (xs : List α) (x : α) :
    putAll key (xs ++ [x]) = put key x (putAll key xs) := by
  rw [putAll, List.foldl_append]
  rfl

/-- The keys come in the order of their first elements. -/
theorem map_key_putAll (xs : List α) : (putAll key xs).map key = (xs.map key).eraseDups := by
  induction xs using List.reverseRecOn with
  | nil => rfl
  | append_singleton xs x ih =>
      rw [putAll_append, map_key_put, ih, List.map_append, List.map_singleton,
        eraseDups_append_singleton]
      simp only [List.mem_eraseDups]

/-- A key gets the last of its elements. -/
theorem get?_putAll (k : κ) (xs : List α) :
    get? key k (putAll key xs) = xs.reverse.find? fun x => key x = k := by
  induction xs using List.reverseRecOn with
  | nil => rfl
  | append_singleton xs x ih =>
      rw [putAll_append, get?_put, ih, List.reverse_append, List.reverse_singleton,
        List.singleton_append, List.find?_cons]
      by_cases hk : k = key x
      · simp [hk]
      · simp [hk, Ne.symm hk]

theorem nodup_putAll (xs : List α) : ((putAll key xs).map key).Nodup := by
  induction xs using List.reverseRecOn with
  | nil => exact List.nodup_nil
  | append_singleton xs x ih =>
      rw [putAll_append]
      exact nodup_put key x ih

/-- Nothing is replaced where no key repeats. -/
theorem putAll_of_nodup {xs : List α} (hnodup : (xs.map key).Nodup) : putAll key xs = xs := by
  induction xs using List.reverseRecOn with
  | nil => rfl
  | append_singleton xs x ih =>
      rw [List.map_append, List.map_singleton, ← List.concat_eq_append, List.nodup_concat] at hnodup
      rw [putAll_append, ih hnodup.2, put_of_not_mem key hnodup.1]

end SegmentFlow.Keyed
