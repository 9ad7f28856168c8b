import SegmentFlow.Proofs.Json.Records
/-!
# Reading back what was written

What a value was written as goes through a store, and what comes out of the store is read again. For
most values that is a matter of their shape alone. A record writes its members in the order of its
fields and leaves some of them out; the store then brings them into another order. So a record is
read back as soon as each member is, which is shown along the list of its fields, and once for all
that the order does not matter.
-/

namespace SegmentFlow

variable {ε α δ : Type}

/-- The shape reads `a` out of the stored form of `t`. -/
def Shape.ReadsBack (shape : Shape ε α) (t : Json) (a : α) : Prop :=
  (shape (.lift t.normal)).value = .ok a

namespace Shape

theorem value_readItems {shape : Shape ε α} {write : α → Tree ε} {as : List α}
    (h : ∀ a ∈ as, (shape (write a)).value = .ok a) :
    (readItems shape (as.map write)).value = .ok as := by
  induction as with
  | nil => rfl
  | cons a as ih =>
      obtain ⟨ha, has⟩ := List.forall_mem_cons.1 h
      rw [List.map_cons, readItems, Reading.value_bind ha]
      exact Reading.value_map (ih has) _

variable [Origin ε]

theorem readsBack_text (s : String) : (text : Shape ε String).ReadsBack (.str s) s := rfl

theorem readsBack_flag (b : Bool) : (flag : Shape ε Bool).ReadsBack (.bool b) b := rfl

theorem readsBack_word (n : UInt32) : (word : Shape ε UInt32).ReadsBack (.ofNat n.toNat) n := by
  have hrange : 0 ≤ (n.toNat : Int) ∧ (n.toNat : Int).toNat < UInt32.size :=
    ⟨Int.natCast_nonneg _, n.toNat_lt_size⟩
  change (word (.num (.integer n.toNat)) : Reading UInt32).value = .ok n
  rw [word, if_pos hrange, Int.toNat_natCast, UInt32.ofNat_toNat]
  rfl

theorem readsBack_parsed {parse : String → Option α} {s : String} {a : α} (h : parse s = some a) :
    (parsed parse : Shape ε α).ReadsBack (.str s) a := by
  have htext : (text (.str s : Tree ε)).value = .ok s := rfl
  change ((text (.str s : Tree ε)).bind _).value = .ok a
  rw [Reading.value_bind htext, h]
  rfl

theorem readsBack_oneOf {find : String → Option α} {s : String} {a : α} (h : find s = some a) :
    (oneOf find : Shape ε α).ReadsBack (.str s) a := by
  change (oneOf find (.str s : Tree ε)).value = .ok a
  rw [oneOf, h]
  rfl

theorem readsBack_anything {t : Json} (ht : t.IsStored) :
    (anything : Shape ε Json).ReadsBack t t := by
  have hnormal : t.normal = t := ht
  rw [ReadsBack, anything, Tree.sound_lift, Tree.lift_self]
  change (Reading.pure t.normal.normal).value = .ok t
  rw [hnormal, hnormal]
  rfl

theorem readsBack_optional {shape : Shape ε α} {t : Json} {a : α} (h : shape.ReadsBack t a)
    (hnull : t ≠ .null) : (optional shape).ReadsBack t (some a) := by
  have hoptional : optional shape (.lift t.normal) = (shape (.lift t.normal)).map some := by
    cases t with
    | null => exact absurd rfl hnull
    | flaw e => exact isEmptyElim e
    | bool _ | num _ | str _ | arr _ | obj _ => rfl
  rw [ReadsBack, hoptional]
  exact Reading.value_map h some

theorem readsBack_list {shape : Shape ε α} {write : α → Json} {as : List α}
    (h : ∀ a ∈ as, shape.ReadsBack (write a) a) :
    (list shape).ReadsBack (.arr (as.map write)) as := by
  rw [ReadsBack, Tree.normal_arr, Tree.lift_arr, List.map_map, List.map_map]
  exact value_readItems h

end Shape

/-! ### Records -/

namespace Field

variable {fields fields' : List (Field ε δ)} {d d' : δ} {ms : List (String × Json)} {n : String}

/-- What the fields, in their order, wrote as the members `ms` takes the draft `d` to `d'`. A field
that wrote nothing is passed by. -/
inductive ReadBack : List (Field ε δ) → δ → List (String × Json) → δ → Prop
  | nil {d : δ} : ReadBack [] d [] d
  | present {α : Type} {fields : List (Field ε δ)} {d d' : δ} {ms : List (String × Json)}
      {n : String} {t : Json} {a : α} {shape : Shape ε α} {put : α → δ → δ}
      (hread : shape.ReadsBack t a) (hrest : ReadBack fields (put a d) ms d') :
      ReadBack (of n shape put :: fields) d ((n, t) :: ms) d'
  | absent {field : Field ε δ} {fields : List (Field ε δ)} {d d' : δ} {ms : List (String × Json)}
      (hrest : ReadBack fields d ms d') : ReadBack (field :: fields) d ms d'

/-- A member that may be left out, where reading nothing changes nothing. -/
theorem ReadBack.optional [Origin ε] {x : Option α} {write : α → Json} {shape : Shape ε α}
    {put : Option α → δ → δ} (hnone : put none d = d)
    (hread : ∀ a ∈ x, shape.ReadsBack (write a) a ∧ write a ≠ .null)
    (hrest : ReadBack fields (put x d) ms d') :
    ReadBack (of n (Shape.optional shape) put :: fields) d (optionalMember n write x ++ ms) d' := by
  cases x with
  | none =>
      rw [hnone] at hrest
      exact .absent hrest
  | some a =>
      obtain ⟨hread, hnull⟩ := hread a rfl
      exact .present (Shape.readsBack_optional hread hnull) hrest

theorem ReadBack.last_optional [Origin ε] {x : Option α} {write : α → Json} {shape : Shape ε α}
    {put : Option α → δ → δ} (hnone : put none d = d)
    (hread : ∀ a ∈ x, shape.ReadsBack (write a) a ∧ write a ≠ .null) :
    ReadBack [of n (Shape.optional shape) put] d (optionalMember n write x) (put x d) := by
  rw [← List.append_nil (optionalMember n write x)]
  exact .optional hnone hread .nil

theorem ReadBack.names_sublist (h : ReadBack fields d ms d') :
    (ms.map Prod.fst).Sublist (fields.map name) := by
  induction h with
  | nil => exact .slnil
  | present _ _ ih => exact ih.cons_cons _
  | absent _ ih => exact ih.cons _

theorem ReadBack.readsTo (h : ReadBack fields d ms d') (hsubset : fields ⊆ fields') :
    ReadsTo fields' d (ms.map fun m => (m.1, .lift m.2.normal)) d' := by
  induction h with
  | nil => exact .nil
  | @present α fields d d' ms n t a shape put hread _ ih =>
      obtain ⟨hfield, hfields⟩ := List.cons_subset.1 hsubset
      exact .cons hfield (Reading.value_map hread put) (ih hfields)
  | absent _ ih => exact ih (List.cons_subset.1 hsubset).2

theorem ReadBack.value_readMembers [Origin ε] [IsEmpty ε] (hfields : Independent fields)
    (h : ReadBack fields d ms d') {ms' : List (String × Tree ε)}
    (hperm : (ms.map fun m => (m.1, .lift m.2.normal)).Perm ms') :
    (Shape.readMembers fields Shape.skip [] d ms').value = .ok d' := by
  have hnodup : ((ms.map fun m => (m.1, (.lift m.2.normal : Tree ε))).map Prod.fst).Nodup := by
    rw [List.map_map]
    exact h.names_sublist.nodup hfields.nodup_names
  have hreads := (h.readsTo (List.Subset.refl fields)).perm hfields hperm hnodup
  refine hreads.value_readMembers hfields.nodup_names ((hperm.map _).nodup_iff.1 hnodup) ?_
  exact fun _ _ => List.not_mem_nil

end Field

namespace Shape

variable [Origin ε] [IsEmpty ε] {fields : List (Field ε δ)} {start d : δ} {finish : δ → Option α} {a : α}
  {ms : List (String × Json)}

theorem value_record_of_perm (hfields : Field.Independent fields)
    (h : Field.ReadBack fields start ms d) (hfinish : finish d = some a)
    {ms' : List (String × Tree ε)} (hperm : (ms.map fun m => (m.1, .lift m.2.normal)).Perm ms') :
    (record fields start finish (.obj ms')).value = .ok a := by
  rw [record_obj, Reading.value_bind (h.value_readMembers hfields hperm), finished, hfinish]
  rfl

theorem readsBack_record (hfields : Field.Independent fields)
    (h : Field.ReadBack fields start ms d) (hfinish : finish d = some a) :
    (record fields start finish).ReadsBack (.obj ms) a := by
  have hnodup : ((ms.map fun m => (m.1, m.2.normal)).map Prod.fst).Nodup := by
    rw [List.map_map]
    exact h.names_sublist.nodup hfields.nodup_names
  rw [ReadsBack, Tree.normal_obj, Tree.lift_obj]
  refine value_record_of_perm hfields h hfinish ?_
  have hperm := (Dictionary.perm_ofList hnodup).symm.map fun m => (m.1, (.lift m.2 : Tree ε))
  rwa [List.map_map] at hperm

end Shape

end SegmentFlow
