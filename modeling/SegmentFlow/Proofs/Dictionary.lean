import Mathlib.Data.List.Nodup
import Mathlib.Data.List.Sort
import SegmentFlow.Dictionary
/-!
# Laws of dictionaries

What is under a name after a change is an equation on `List.lookup` that holds of any list of
entries. The order of the entries matters in one place: it makes two dictionaries with the same
look-ups equal. So a dictionary is known as soon as its look-ups are.
-/

namespace SegmentFlow.Dictionary

variable {α β : Type} {n name : String} {v value : α} {ms ms' : List (String × α)}

/-! ### Names -/

theorem lookup_eq_none_iff : ms.lookup n = none ↔ n ∉ ms.map Prod.fst := by
  simp only [List.lookup_eq_none_iff, List.mem_map, bne_iff_ne, not_exists, not_and]
  exact ⟨fun h m hm heq => h m hm heq.symm, fun h m hm heq => h m hm heq.symm⟩

theorem mem_of_lookup_eq_some (h : ms.lookup n = some v) : (n, v) ∈ ms := by
  obtain ⟨before, after, rfl, -⟩ := List.lookup_eq_some_iff.1 h
  exact List.mem_append_right before List.mem_cons_self

/-- Where no name is repeated, the value under a name does not depend on the order of the
entries. -/
theorem lookup_eq_some_iff (hnodup : (ms.map Prod.fst).Nodup) :
    ms.lookup n = some v ↔ (n, v) ∈ ms := by
  refine ⟨mem_of_lookup_eq_some, fun hmem => ?_⟩
  cases hfound : ms.lookup n with
  | none => exact absurd (List.mem_map_of_mem hmem) (lookup_eq_none_iff.1 hfound)
  | some v' =>
      have heq := List.inj_on_of_nodup_map hnodup (mem_of_lookup_eq_some hfound) hmem rfl
      rw [(Prod.mk.inj heq).2]

theorem lookup_eq_of_perm (hnodup : (ms.map Prod.fst).Nodup) (hperm : ms.Perm ms') :
    ms.lookup n = ms'.lookup n := by
  have hnodup' := (hperm.map Prod.fst).nodup_iff.1 hnodup
  ext v
  rw [lookup_eq_some_iff hnodup, lookup_eq_some_iff hnodup', hperm.mem_iff]

theorem sorted_iff_names : Sorted ms ↔ (ms.map Prod.fst).Pairwise (· < ·) :=
  List.pairwise_map.symm

theorem Sorted.nodup_names (hsorted : Sorted ms) : (ms.map Prod.fst).Nodup := by
  refine (sorted_iff_names.1 hsorted).imp fun hlt heq => ?_
  rw [heq] at hlt
  exact String.lt_irrefl _ hlt

/-- A dictionary has no more to it than its look-ups. -/
theorem Sorted.eq_of_lookup_eq (hms : Sorted ms) (hms' : Sorted ms')
    (h : ∀ n, ms.lookup n = ms'.lookup n) : ms = ms' := by
  have hperm : ms.Perm ms' := by
    refine (List.perm_ext_iff_of_nodup hms.nodup_names.of_map hms'.nodup_names.of_map).2 ?_
    rintro ⟨n, v⟩
    rw [← lookup_eq_some_iff hms.nodup_names, h, lookup_eq_some_iff hms'.nodup_names]
  exact hperm.eq_of_pairwise (fun _ _ _ _ hab hba => absurd hba (String.lt_asymm hab)) hms hms'

/-! ### Look-ups after a change -/

theorem lookup_cons_eq : ((n, v) :: ms).lookup name = if name = n then some v else ms.lookup name := by
  rw [List.lookup_cons]
  split <;> simp_all

theorem lookup_insert :
    (insert name value ms).lookup n = if n = name then some value else ms.lookup n := by
  induction ms with
  | nil => rw [insert, lookup_cons_eq]
  | cons m ms ih =>
      rw [insert]
      split
      · rw [lookup_cons_eq]
      · split
        · next heq => rw [lookup_cons_eq, lookup_cons_eq, heq]; grind
        · next hne => rw [lookup_cons_eq, lookup_cons_eq, ih]; grind

theorem lookup_erase : (erase name ms).lookup n = if n = name then none else ms.lookup n := by
  induction ms with
  | nil => simp [erase]
  | cons m ms ih =>
      rw [erase] at ih ⊢
      rw [List.filter_cons]
      split
      · rw [lookup_cons_eq, lookup_cons_eq, ih]; grind
      · rw [ih, lookup_cons_eq]; grind

theorem lookup_update {change : α → α} :
    (update name change ms).lookup n
      = if n = name then (ms.lookup n).map change else ms.lookup n := by
  induction ms with
  | nil => simp [update]
  | cons m ms ih =>
      rw [update] at ih ⊢
      rw [List.map_cons]
      split
      · rw [lookup_cons_eq, lookup_cons_eq, ih]; grind
      · rw [lookup_cons_eq, lookup_cons_eq, ih]; grind

theorem lookup_map (change : String → α → β) :
    (ms.map fun m => (m.1, change m.1 m.2)).lookup n = (ms.lookup n).map (change n) := by
  induction ms with
  | nil => rfl
  | cons m ms ih =>
      rw [List.map_cons, lookup_cons_eq, lookup_cons_eq, ih]
      split
      · next heq => rw [heq, Option.map_some]
      · rfl

/-! ### Entries that are left -/

theorem erase_insert : erase name (insert name value ms) = erase name ms := by
  induction ms with
  | nil => simp [insert, erase]
  | cons m ms ih =>
      rw [erase] at ih ⊢
      rw [insert]
      split
      · simp [erase]
      · split
        · next heq => simp [erase, heq]
        · simp [erase, List.filter_cons, ih]

theorem erase_map {change : String → α → α} :
    erase name (ms.map fun m => (m.1, change m.1 m.2))
      = (erase name ms).map fun m => (m.1, change m.1 m.2) := by
  rw [erase, List.filter_map]
  rfl

/-! ### Entries stay in order -/

theorem mem_insert {m : String × α} (hmem : m ∈ insert name value ms) :
    m = (name, value) ∨ m ∈ ms := by
  induction ms with
  | nil => exact .inl (List.mem_singleton.1 hmem)
  | cons m' ms ih =>
      rw [insert] at hmem
      grind

theorem Sorted.insert (hsorted : Sorted ms) : Sorted (insert name value ms) := by
  induction ms with
  | nil => exact List.pairwise_singleton _ _
  | cons m ms ih =>
      obtain ⟨hfirst, hrest⟩ := List.pairwise_cons.1 hsorted
      rw [Dictionary.insert]
      split
      · next hlt =>
          refine List.pairwise_cons.2 ⟨fun m' hm' => ?_, hsorted⟩
          obtain rfl | hm' := List.mem_cons.1 hm'
          · exact hlt
          · exact String.lt_trans hlt (hfirst m' hm')
      · next hnlt =>
          split
          · next heq => exact List.pairwise_cons.2 ⟨fun m' hm' => heq ▸ hfirst m' hm', hrest⟩
          · next hne =>
              refine List.pairwise_cons.2 ⟨fun m' hm' => ?_, ih hrest⟩
              obtain rfl | hm' := mem_insert hm'
              · refine Decidable.by_contra fun hle => hne ?_
                exact String.le_antisymm (String.not_lt.1 hle) (String.not_lt.1 hnlt)
              · exact hfirst m' hm'

theorem Sorted.erase (hsorted : Sorted ms) : Sorted (erase name ms) :=
  hsorted.sublist List.filter_sublist

theorem names_update {change : α → α} :
    (update name change ms).map Prod.fst = ms.map Prod.fst := by
  rw [update, List.map_map]
  refine List.map_congr_left fun m _ => ?_
  rw [Function.comp_apply]
  split <;> rfl

theorem Sorted.update {change : α → α} (hsorted : Sorted ms) : Sorted (update name change ms) := by
  rw [sorted_iff_names, names_update]
  exact sorted_iff_names.1 hsorted

/-! ### A dictionary from a list of entries -/

theorem Sorted.foldl_insert {entries : List (String × α)} (hsorted : Sorted ms) :
    Sorted (entries.foldl (fun ms m => Dictionary.insert m.1 m.2 ms) ms) := by
  induction entries generalizing ms with
  | nil => exact hsorted
  | cons m entries ih => exact ih hsorted.insert

theorem sorted_ofList : Sorted (ofList ms) :=
  Sorted.foldl_insert List.Pairwise.nil

theorem mem_of_mem_foldl_insert {entries : List (String × α)} {m : String × α}
    (hm : m ∈ entries.foldl (fun ms m => insert m.1 m.2 ms) ms) : m ∈ ms ∨ m ∈ entries := by
  induction entries generalizing ms with
  | nil => exact .inl hm
  | cons entry entries ih =>
      obtain hm | hm := ih hm
      · obtain rfl | hm := mem_insert hm
        · exact .inr List.mem_cons_self
        · exact .inl hm
      · exact .inr (List.mem_cons_of_mem entry hm)

theorem mem_of_mem_ofList {m : String × α} (hm : m ∈ ofList ms) : m ∈ ms :=
  (mem_of_mem_foldl_insert hm).resolve_left List.not_mem_nil

theorem perm_insert (hnew : name ∉ ms.map Prod.fst) :
    (insert name value ms).Perm ((name, value) :: ms) := by
  induction ms with
  | nil => exact .refl _
  | cons m ms ih =>
      rw [List.map_cons, List.mem_cons, not_or] at hnew
      rw [insert]
      split
      · exact .refl _
      · rw [if_neg hnew.1]
        exact ((ih hnew.2).cons m).trans (.swap _ _ _)

theorem perm_foldl_insert {entries : List (String × α)}
    (hnodup : ((ms ++ entries).map Prod.fst).Nodup) :
    (entries.foldl (fun ms m => insert m.1 m.2 ms) ms).Perm (ms ++ entries) := by
  induction entries generalizing ms with
  | nil => rw [List.append_nil]; exact .refl _
  | cons m entries ih =>
      have hmiddle : (ms ++ m :: entries).Perm ((m :: ms) ++ entries) := List.perm_middle
      have hnodup := (hmiddle.map Prod.fst).nodup_iff.1 hnodup
      have hnew : m.1 ∉ ms.map Prod.fst := by
        rw [List.cons_append, List.map_cons, List.nodup_cons, List.map_append] at hnodup
        exact fun hmem => hnodup.1 (List.mem_append_left _ hmem)
      have hinsert : (insert m.1 m.2 ms ++ entries).Perm ((m :: ms) ++ entries) :=
        (perm_insert hnew).append_right entries
      refine (ih ((hinsert.map Prod.fst).nodup_iff.2 hnodup)).trans ?_
      exact hinsert.trans hmiddle.symm

/-- Of entries that repeat no name, all stay. -/
theorem perm_ofList (hnodup : (ms.map Prod.fst).Nodup) : (ofList ms).Perm ms :=
  perm_foldl_insert hnodup

theorem lookup_ofList (hnodup : (ms.map Prod.fst).Nodup) :
    (ofList ms).lookup n = ms.lookup n :=
  (lookup_eq_of_perm hnodup (perm_ofList hnodup).symm).symm

/-- Under another spelling of the names that keeps them apart, the values stay where they were. -/
theorem lookup_ofList_respelled {spell : String → String} (hnodup : (ms.map Prod.fst).Nodup)
    (hinj : ∀ m ∈ ms, ∀ m' ∈ ms, spell m.1 = spell m'.1 → m.1 = m'.1) :
    (ofList (ms.map fun m => (spell m.1, m.2))).lookup name = some v
      ↔ ∃ n, (n, v) ∈ ms ∧ spell n = name := by
  have hnodup' : ((ms.map fun m => (spell m.1, m.2)).map Prod.fst).Nodup := by
    rw [List.map_map]
    refine hnodup.of_map.map_on fun m hm m' hm' heq => ?_
    exact List.inj_on_of_nodup_map hnodup hm hm' (hinj m hm m' hm' heq)
  rw [lookup_ofList hnodup', lookup_eq_some_iff hnodup', List.mem_map]
  constructor
  · rintro ⟨⟨n, v'⟩, hm, heq⟩
    obtain ⟨hspelled, rfl⟩ := Prod.mk.inj heq
    exact ⟨n, hm, hspelled⟩
  · rintro ⟨n, hm, hspelled⟩
    exact ⟨(n, v), hm, Prod.ext hspelled rfl⟩

theorem ofList_eq_of_sorted (hsorted : Sorted ms) : ofList ms = ms :=
  sorted_ofList.eq_of_lookup_eq hsorted fun _ => lookup_ofList hsorted.nodup_names

theorem map_ofList (change : String → α → β) (hnodup : (ms.map Prod.fst).Nodup) :
    (ofList ms).map (fun m => (m.1, change m.1 m.2))
      = ofList (ms.map fun m => (m.1, change m.1 m.2)) := by
  have hnodup' : ((ms.map fun m => (m.1, change m.1 m.2)).map Prod.fst).Nodup := by
    rw [List.map_map]
    exact hnodup
  have hsorted : Sorted ((ofList ms).map fun m => (m.1, change m.1 m.2)) := by
    rw [sorted_iff_names, List.map_map]
    exact sorted_iff_names.1 sorted_ofList
  refine hsorted.eq_of_lookup_eq sorted_ofList fun n => ?_
  rw [lookup_map, lookup_ofList hnodup, lookup_ofList hnodup', lookup_map]

theorem update_ofList {change : α → α} (hnodup : (ms.map Prod.fst).Nodup) :
    update name change (ofList ms) = ofList (update name change ms) := by
  have hnodup' : ((update name change ms).map Prod.fst).Nodup := by rwa [names_update]
  refine sorted_ofList.update.eq_of_lookup_eq sorted_ofList fun n => ?_
  rw [lookup_update, lookup_ofList hnodup, lookup_ofList hnodup', lookup_update]

end SegmentFlow.Dictionary
