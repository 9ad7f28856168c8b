import SegmentFlow.Proofs.Dictionary
import SegmentFlow.Proofs.Keyed
import SegmentFlow.Workflow.Migration
/-!
# Old and current names

`renameAll` goes through its table one row after the other. As long as no row undoes or repeats
another one, what is under a name in the end can be said at once: nothing under an old name, and
under a current one what was there or else what its old name had. So an object that was spelled with
old names, any of them, comes back as it was.
-/

namespace SegmentFlow.Migration

variable {renames : Renames} {ms ms' : Members} {m : String × Json} {old current n : String}

/-- No name occurs twice in the table. -/
def Renames.Separate (renames : Renames) : Prop :=
  (renames.map Prod.fst ++ renames.map Prod.snd).Nodup

instance : Decidable renames.Separate :=
  inferInstanceAs (Decidable (List.Nodup _))

theorem Renames.Separate.cons (h : Renames.Separate ((old, current) :: renames)) :
    (old ∉ renames.map Prod.fst ∧ old ≠ current ∧ old ∉ renames.map Prod.snd)
      ∧ (current ∉ renames.map Prod.fst ∧ current ∉ renames.map Prod.snd)
      ∧ renames.Separate := by
  rw [Separate] at h ⊢
  rw [List.map_cons, List.map_cons, List.cons_append, List.nodup_cons,
    List.nodup_middle, List.nodup_cons] at h
  simpa [not_or, and_assoc] using h

/-- The object has none of the old names. -/
def IsCurrent (renames : Renames) (ms : Members) : Prop :=
  ∀ r ∈ renames, r.1 ∉ ms.map Prod.fst

instance : Decidable (IsCurrent renames ms) :=
  inferInstanceAs (Decidable (∀ r ∈ renames, r.1 ∉ ms.map Prod.fst))

theorem rename_of_eq_none (hold : ms.lookup old = none) : rename old current ms = ms := by
  rw [rename, hold]

theorem sorted_rename (hsorted : Dictionary.Sorted ms) :
    Dictionary.Sorted (rename old current ms) := by
  cases hold : ms.lookup old with
  | none => rwa [rename_of_eq_none hold]
  | some value =>
      simp only [rename, hold]
      split
      · exact hsorted.erase
      · exact hsorted.erase.insert

theorem exists_of_mem_rename (hm : m ∈ rename old current ms) :
    ∃ m' ∈ ms, m'.2 = m.2 := by
  cases hold : ms.lookup old with
  | none =>
      rw [rename_of_eq_none hold] at hm
      exact ⟨m, hm, rfl⟩
  | some value =>
      simp only [rename, hold] at hm
      split at hm
      · exact ⟨m, List.mem_of_mem_filter hm, rfl⟩
      · obtain rfl | hm := Dictionary.mem_insert hm
        · exact ⟨(old, value), Dictionary.mem_of_lookup_eq_some hold, rfl⟩
        · exact ⟨m, List.mem_of_mem_filter hm, rfl⟩

theorem lookup_rename (hne : current ≠ old) :
    (rename old current ms).lookup n
      = if n = old then none
        else if n = current then (ms.lookup current).or (ms.lookup old) else ms.lookup n := by
  cases hold : ms.lookup old with
  | none =>
      rw [rename_of_eq_none hold, Option.or_none]
      grind
  | some value =>
      have hkept : (Dictionary.erase old ms).lookup current = ms.lookup current := by
        rw [Dictionary.lookup_erase, if_neg hne]
      simp only [rename, hold, hkept]
      cases hcurrent : ms.lookup current with
      | none =>
          rw [Option.isSome_none, if_neg Bool.false_ne_true, Dictionary.lookup_insert,
            Dictionary.lookup_erase, Option.none_or]
          grind
      | some value' =>
          rw [Option.isSome_some, if_pos rfl, Dictionary.lookup_erase, Option.some_or]
          grind

/-! ### The whole table -/

theorem renameAll_cons {r : String × String} :
    renameAll (r :: renames) ms = renameAll renames (rename r.1 r.2 ms) := rfl

theorem sorted_renameAll (hsorted : Dictionary.Sorted ms) :
    Dictionary.Sorted (renameAll renames ms) := by
  induction renames generalizing ms with
  | nil => exact hsorted
  | cons r rs ih => exact ih (sorted_rename hsorted)

theorem exists_of_mem_renameAll (hm : m ∈ renameAll renames ms) : ∃ m' ∈ ms, m'.2 = m.2 := by
  induction renames generalizing ms with
  | nil => exact ⟨m, hm, rfl⟩
  | cons r rs ih =>
      obtain ⟨m', hm', heq⟩ := ih hm
      obtain ⟨m'', hm'', heq'⟩ := exists_of_mem_rename hm'
      exact ⟨m'', hm'', heq'.trans heq⟩

theorem renameAll_of_isCurrent (hcurrent : IsCurrent renames ms) : renameAll renames ms = ms := by
  induction renames with
  | nil => rfl
  | cons r rs ih =>
      obtain ⟨hr, hrs⟩ := List.forall_mem_cons.1 hcurrent
      rw [renameAll_cons, rename_of_eq_none (Dictionary.lookup_eq_none_iff.2 hr), ih hrs]

/-- Under another name stands what was there, or else what the old name of it had. -/
theorem lookup_renameAll (hrenames : renames.Separate) (hn : n ∉ renames.map Prod.fst) :
    (renameAll renames ms).lookup n
      = (ms.lookup n).or ((Keyed.get? Prod.snd n renames).bind fun r => ms.lookup r.1) := by
  induction renames generalizing ms with
  | nil => simp [renameAll, Keyed.get?]
  | cons r rs ih =>
      obtain ⟨old, current⟩ := r
      obtain ⟨hold, hcurrent, hrs⟩ := hrenames.cons
      have hne : current ≠ old := fun heq => hold.2.1 heq.symm
      rw [List.map_cons, List.mem_cons, not_or] at hn
      -- the other rows look under names that this one leaves alone
      have hother : ((Keyed.get? Prod.snd n rs).bind fun r => (rename old current ms).lookup r.1)
          = (Keyed.get? Prod.snd n rs).bind fun r => ms.lookup r.1 := by
        cases hrow : Keyed.get? Prod.snd n rs with
        | none => rfl
        | some r =>
            have hr : r.1 ∈ rs.map Prod.fst := List.mem_map_of_mem (List.mem_of_find?_eq_some hrow)
            have hrold : r.1 ≠ old := fun heq => hold.1 (heq ▸ hr)
            have hrcurrent : r.1 ≠ current := fun heq => hcurrent.1 (heq ▸ hr)
            rw [Option.bind_some, Option.bind_some, lookup_rename hne, if_neg hrold,
              if_neg hrcurrent]
      rw [renameAll_cons, ih hrs hn.2, hother, lookup_rename hne, if_neg hn.1]
      by_cases heq : n = current
      · have hnone : Keyed.get? Prod.snd n rs = none :=
          (Keyed.get?_eq_none_iff Prod.snd).2 (heq ▸ hcurrent.2)
        have hrow : Keyed.get? Prod.snd n ((old, current) :: rs) = some (old, current) :=
          List.find?_cons_of_pos (decide_eq_true heq.symm)
        rw [hnone, hrow, if_pos heq, heq, Option.bind_none, Option.or_none, Option.bind_some]
      · have hrow : Keyed.get? Prod.snd n ((old, current) :: rs) = Keyed.get? Prod.snd n rs :=
          List.find?_cons_of_neg (by simpa using Ne.symm heq)
        rw [hrow, if_neg heq]

theorem lookup_renameAll_of_mem (hrenames : renames.Separate) (hn : n ∈ renames.map Prod.fst) :
    (renameAll renames ms).lookup n = none := by
  induction renames generalizing ms with
  | nil => nomatch hn
  | cons r rs ih =>
      obtain ⟨old, current⟩ := r
      obtain ⟨hold, -, hrs⟩ := hrenames.cons
      rw [renameAll_cons]
      by_cases hmem : n ∈ rs.map Prod.fst
      · exact ih hrs hmem
      · obtain rfl := (List.mem_cons.1 hn).resolve_right hmem
        have hnone : Keyed.get? Prod.snd n rs = none :=
          (Keyed.get?_eq_none_iff Prod.snd).2 hold.2.2
        rw [lookup_renameAll hrs hmem, hnone, lookup_rename fun heq => hold.2.1 heq.symm, if_pos rfl,
          Option.none_or, Option.bind_none]

theorem lookup_renameAll_current {r : String × String} (hrenames : renames.Separate)
    (hr : r ∈ renames) :
    (renameAll renames ms).lookup r.2 = (ms.lookup r.2).or (ms.lookup r.1) := by
  obtain ⟨-, hsnd, hdisjoint⟩ := List.nodup_append.1 hrenames
  have hnew : r.2 ∉ renames.map Prod.fst :=
    fun hold => hdisjoint _ hold _ (List.mem_map_of_mem hr) rfl
  rw [lookup_renameAll hrenames hnew, Keyed.get?_of_mem Prod.snd hsnd hr, Option.bind_some]

theorem lookup_renameAll_other (hrenames : renames.Separate) (hold : n ∉ renames.map Prod.fst)
    (hcurrent : n ∉ renames.map Prod.snd) : (renameAll renames ms).lookup n = ms.lookup n := by
  rw [lookup_renameAll hrenames hold, (Keyed.get?_eq_none_iff Prod.snd).2 hcurrent,
    Option.bind_none, Option.or_none]

theorem renameAll_eq_self_iff (hrenames : renames.Separate) :
    renameAll renames ms = ms ↔ IsCurrent renames ms := by
  refine ⟨fun h r hr => ?_, renameAll_of_isCurrent⟩
  rw [← Dictionary.lookup_eq_none_iff, ← h]
  exact lookup_renameAll_of_mem hrenames (List.mem_map_of_mem hr)

/-! ### Undoing a respelling -/

/-- `ms'` is `ms`, which has current names only, with any of them in their old spelling. -/
structure Respelled (renames : Renames) (ms ms' : Members) : Prop where
  current : IsCurrent renames ms
  spelled : ∃ spell : String → String, (∀ m ∈ ms, spell m.1 = m.1 ∨ (spell m.1, m.1) ∈ renames)
    ∧ ms' = Dictionary.ofList (ms.map fun m => (spell m.1, m.2))

section Spelled

variable {spell : String → String} {v : Json} (hrenames : renames.Separate)
  (hsorted : Dictionary.Sorted ms) (hcurrent : IsCurrent renames ms)
  (hspell : ∀ m ∈ ms, spell m.1 = m.1 ∨ (spell m.1, m.1) ∈ renames)

include hspell in
theorem spell_eq_self (hm : m ∈ ms) (hnew : spell m.1 ∉ renames.map Prod.fst) :
    spell m.1 = m.1 :=
  (hspell m hm).resolve_right fun hrow => hnew (List.mem_map_of_mem hrow)

include hrenames hcurrent hspell

/-- An old name is the spelling of its current name alone. -/
theorem eq_current_of_spell_eq {r : String × String} (hm : m ∈ ms) (hr : r ∈ renames)
    (heq : spell m.1 = r.1) : m.1 = r.2 := by
  have hfst : (renames.map Prod.fst).Nodup := (List.nodup_append.1 hrenames).1
  obtain hkept | hrow := hspell m hm
  · exact absurd (List.mem_map_of_mem hm) (hkept ▸ heq ▸ hcurrent r hr)
  · exact congrArg Prod.snd (List.inj_on_of_nodup_map hfst hrow hr heq)

theorem eq_of_spell_eq {m' : String × Json} (hm : m ∈ ms) (hm' : m' ∈ ms)
    (heq : spell m.1 = spell m'.1) : m.1 = m'.1 := by
  by_cases hnew : spell m.1 ∈ renames.map Prod.fst
  · obtain ⟨r, hr, hspelled⟩ := List.mem_map.1 hnew
    rw [eq_current_of_spell_eq hrenames hcurrent hspell hm hr hspelled.symm,
      eq_current_of_spell_eq hrenames hcurrent hspell hm' hr (heq ▸ hspelled.symm)]
  · rw [← spell_eq_self hspell hm hnew, heq, spell_eq_self hspell hm' (heq ▸ hnew)]

include hsorted

theorem lookup_spelled_iff :
    (Dictionary.ofList (ms.map fun m => (spell m.1, m.2))).lookup n = some v
      ↔ ∃ n', (n', v) ∈ ms ∧ spell n' = n :=
  Dictionary.lookup_ofList_respelled hsorted.nodup_names fun _ hm _ hm' heq =>
    eq_of_spell_eq hrenames hcurrent hspell hm hm' heq

/-- What stands under a name that is not old has stood there before. -/
theorem mem_of_lookup_spelled (hn : n ∉ renames.map Prod.fst)
    (hv : (Dictionary.ofList (ms.map fun m => (spell m.1, m.2))).lookup n = some v) :
    (n, v) ∈ ms := by
  obtain ⟨n', hm, hspelled⟩ := (lookup_spelled_iff hrenames hsorted hcurrent hspell).1 hv
  obtain rfl : n' = n := (spell_eq_self hspell hm (hspelled.symm ▸ hn)).symm.trans hspelled
  exact hm

/-- A member is found under its own name, or else under the old one. -/
theorem lookup_spelled_of_mem (hn : n ∉ renames.map Prod.fst) (hm : (n, v) ∈ ms) :
    (Dictionary.ofList (ms.map fun m => (spell m.1, m.2))).lookup n = some v
      ∨ (Dictionary.ofList (ms.map fun m => (spell m.1, m.2))).lookup n = none
        ∧ ((Keyed.get? Prod.snd n renames).bind fun r =>
            (Dictionary.ofList (ms.map fun m => (spell m.1, m.2))).lookup r.1) = some v := by
  have hlookup {k : String} := lookup_spelled_iff (n := k) (v := v) hrenames hsorted hcurrent hspell
  obtain hspelled | hrow := hspell _ hm
  · exact .inl (hlookup.2 ⟨n, hm, hspelled⟩)
  · have hsnd : (renames.map Prod.snd).Nodup := (List.nodup_append.1 hrenames).2.1
    have hget : Keyed.get? Prod.snd n renames = some (spell n, n) :=
      Keyed.get?_of_mem Prod.snd hsnd hrow
    rw [hget, Option.bind_some]
    cases hfound : (Dictionary.ofList (ms.map fun m => (spell m.1, m.2))).lookup n with
    | none => exact .inr ⟨rfl, hlookup.2 ⟨n, hm, rfl⟩⟩
    | some v' =>
        have hkept := mem_of_lookup_spelled hrenames hsorted hcurrent hspell hn hfound
        have heq := List.inj_on_of_nodup_map hsorted.nodup_names hkept hm rfl
        exact .inl (congrArg (fun m => some m.2) heq)

end Spelled

theorem Respelled.renameAll_eq (hrenames : renames.Separate) (hsorted : Dictionary.Sorted ms)
    (h : Respelled renames ms ms') : renameAll renames ms' = ms := by
  obtain ⟨hcurrent, spell, hspell, rfl⟩ := h
  refine (sorted_renameAll Dictionary.sorted_ofList).eq_of_lookup_eq hsorted fun n => ?_
  by_cases hn : n ∈ renames.map Prod.fst
  · obtain ⟨r, hr, rfl⟩ := List.mem_map.1 hn
    rw [lookup_renameAll_of_mem hrenames hn, Dictionary.lookup_eq_none_iff.2 (hcurrent r hr)]
  · ext v
    rw [lookup_renameAll hrenames hn, Dictionary.lookup_eq_some_iff hsorted.nodup_names,
      Option.or_eq_some_iff]
    refine ⟨?_, lookup_spelled_of_mem hrenames hsorted hcurrent hspell hn⟩
    rintro (hv | ⟨-, hv⟩)
    · exact mem_of_lookup_spelled hrenames hsorted hcurrent hspell hn hv
    · obtain ⟨r, hrow, hv⟩ := Option.bind_eq_some_iff.1 hv
      obtain ⟨n', hm, hspelled⟩ := (lookup_spelled_iff hrenames hsorted hcurrent hspell).1 hv
      have hr : r ∈ renames := List.mem_of_find?_eq_some hrow
      obtain rfl : n' = n :=
        (eq_current_of_spell_eq hrenames hcurrent hspell hm hr hspelled).trans
          (Keyed.key_of_get?_eq_some Prod.snd hrow)
      exact hm

/-- The object with all of its names in their old spelling. -/
def respell (renames : Renames) (ms : Members) : Members :=
  Dictionary.ofList <| ms.map fun m =>
    (((Keyed.get? Prod.snd m.1 renames).map Prod.fst).getD m.1, m.2)

theorem respelled_respell (hcurrent : IsCurrent renames ms) :
    Respelled renames ms (respell renames ms) := by
  refine ⟨hcurrent, fun n => ((Keyed.get? Prod.snd n renames).map Prod.fst).getD n,
    fun m _ => ?_, rfl⟩
  cases hrow : Keyed.get? Prod.snd m.1 renames with
  | none =>
      simp only [hrow]
      exact .inl rfl
  | some r =>
      simp only [hrow]
      have hname : r.2 = m.1 := Keyed.key_of_get?_eq_some Prod.snd hrow
      have hmem : r ∈ renames := List.mem_of_find?_eq_some hrow
      exact .inr (hname ▸ hmem)

end SegmentFlow.Migration
