import SegmentFlow.Proofs.Json.Records
/-!
# What is known of a value that was read

A reader that returns a value has looked at the tree, so something is known of the value.
`Shape.Yields` says what: of a tree with one property, the shape reads nothing but values with
another one. A record is read into a draft, and the invariant of the draft is kept by each of its
fields; so what a record yields follows from its fields one at a time, in whatever order the members
come, and also where the record is given as an array.

The property of a tree that goes down to its parts is that its numbers are finite, as those of every
JSON value are.
-/

namespace SegmentFlow

variable {ε α β δ : Type}

namespace Reading

theorem exists_of_value_bind_eq_ok {x : Reading α} {f : α → Reading β} {b : β}
    (h : (x.bind f).value = .ok b) : ∃ a, x.value = .ok a ∧ (f a).value = .ok b := by
  rw [Reading.bind] at h
  cases hvalue : x.value with
  | error e => rw [hvalue] at h; cases h
  | ok a => rw [hvalue] at h; exact ⟨a, rfl, h⟩

end Reading

/-! ### Finite numbers -/

namespace Number

/-- The number is finite as a float. A whole number is, unless it is far too large for a word of 64
bits. -/
def IsFinite : Number → Prop
  | integer i => (Binary64.ofInt i).isFinite = true
  | float x => x.isFinite = true

instance (n : Number) : Decidable n.IsFinite := by
  cases n <;> exact inferInstanceAs (Decidable (_ = _))

end Number

namespace Tree

mutual

/-- All numbers in the tree are finite. -/
def FiniteNumbers : Tree ε → Prop
  | num n => n.IsFinite
  | arr items => FiniteNumbersItems items
  | obj members => FiniteNumbersMembers members
  | _ => True

def FiniteNumbersItems : List (Tree ε) → Prop
  | [] => True
  | t :: ts => FiniteNumbers t ∧ FiniteNumbersItems ts

def FiniteNumbersMembers : List (String × Tree ε) → Prop
  | [] => True
  | (_, t) :: ms => FiniteNumbers t ∧ FiniteNumbersMembers ms

end

theorem finiteNumbers_arr_iff {items : List (Tree ε)} :
    (arr items).FiniteNumbers ↔ ∀ t ∈ items, t.FiniteNumbers := by
  rw [FiniteNumbers]
  induction items with
  | nil => simp [FiniteNumbersItems]
  | cons t ts ih => rw [FiniteNumbersItems, ih, List.forall_mem_cons]

theorem finiteNumbers_obj_iff {members : List (String × Tree ε)} :
    (obj members).FiniteNumbers ↔ ∀ m ∈ members, m.2.FiniteNumbers := by
  rw [FiniteNumbers]
  induction members with
  | nil => simp [FiniteNumbersMembers]
  | cons m ms ih => rw [FiniteNumbersMembers, ih, List.forall_mem_cons]

mutual

theorem finiteNumbers_lift : ∀ t : Json, t.FiniteNumbers → (t.lift : Tree ε).FiniteNumbers
  | null | bool _ | str _ => by simp [lift, FiniteNumbers]
  | num n => by rw [lift, FiniteNumbers, FiniteNumbers]; exact id
  | arr items => by
    rw [lift, FiniteNumbers, FiniteNumbers]
    exact finiteNumbersItems_lift items
  | obj members => by
    rw [lift, FiniteNumbers, FiniteNumbers]
    exact finiteNumbersMembers_lift members

theorem finiteNumbersItems_lift : ∀ items : List Json, FiniteNumbersItems items →
    FiniteNumbersItems (liftItems items : List (Tree ε))
  | [] => by rw [liftItems, FiniteNumbersItems, FiniteNumbersItems]; exact id
  | t :: ts => by
    rw [liftItems, FiniteNumbersItems, FiniteNumbersItems]
    exact And.imp (finiteNumbers_lift t) (finiteNumbersItems_lift ts)

theorem finiteNumbersMembers_lift : ∀ members : List (String × Json),
    FiniteNumbersMembers members →
      FiniteNumbersMembers (liftMembers members : List (String × Tree ε))
  | [] => by rw [liftMembers, FiniteNumbersMembers, FiniteNumbersMembers]; exact id
  | (_, t) :: ms => by
    rw [liftMembers, FiniteNumbersMembers, FiniteNumbersMembers]
    exact And.imp (finiteNumbers_lift t) (finiteNumbersMembers_lift ms)

end

/-! ### Trees without flaws -/

theorem sound_arr_eq_ok {ts : List (Tree ε)} {t' : Tree β} (h : (arr ts).sound = .ok t') :
    ∃ us, soundItems ts = .ok us ∧ t' = arr us := by
  rw [sound] at h
  cases hus : (soundItems ts : Except ε (List (Tree β))) with
  | error e => rw [hus] at h; cases h
  | ok us => rw [hus] at h; exact ⟨us, rfl, (Except.ok.inj h).symm⟩

theorem sound_obj_eq_ok {ms : List (String × Tree ε)} {t' : Tree β}
    (h : (obj ms).sound = .ok t') : ∃ us, soundMembers ms = .ok us ∧ t' = obj us := by
  rw [sound] at h
  cases hus : (soundMembers ms : Except ε (List (String × Tree β))) with
  | error e => rw [hus] at h; cases h
  | ok us => rw [hus] at h; exact ⟨us, rfl, (Except.ok.inj h).symm⟩

theorem soundItems_cons_eq_ok {t : Tree ε} {ts : List (Tree ε)} {us : List (Tree β)}
    (h : soundItems (t :: ts) = .ok us) :
    ∃ u us', t.sound = .ok u ∧ soundItems ts = .ok us' ∧ us = u :: us' := by
  rw [soundItems] at h
  cases hu : (t.sound : Except ε (Tree β)) with
  | error e => rw [hu] at h; cases h
  | ok u =>
      cases hus : (soundItems ts : Except ε (List (Tree β))) with
      | error e => rw [hu, hus] at h; cases h
      | ok us' => rw [hu, hus] at h; exact ⟨u, us', rfl, rfl, (Except.ok.inj h).symm⟩

theorem soundMembers_cons_eq_ok {name : String} {t : Tree ε} {ms : List (String × Tree ε)}
    {us : List (String × Tree β)} (h : soundMembers ((name, t) :: ms) = .ok us) :
    ∃ u us', t.sound = .ok u ∧ soundMembers ms = .ok us' ∧ us = (name, u) :: us' := by
  rw [soundMembers] at h
  cases hu : (t.sound : Except ε (Tree β)) with
  | error e => rw [hu] at h; cases h
  | ok u =>
      cases hus : (soundMembers ms : Except ε (List (String × Tree β))) with
      | error e => rw [hu, hus] at h; cases h
      | ok us' => rw [hu, hus] at h; exact ⟨u, us', rfl, rfl, (Except.ok.inj h).symm⟩

theorem normal_ne_null {t : Tree ε} (ht : t ≠ .null) : t.normal ≠ .null := by
  cases t with
  | null => exact absurd rfl ht
  | _ => simp [normal]

theorem ne_null_of_sound {t : Tree ε} {t' : Tree β} (h : t.sound = .ok t') (ht : t ≠ .null) :
    t' ≠ .null := by
  rintro rfl
  cases t with
  | null => exact ht rfl
  | arr ts =>
      obtain ⟨_, -, hnull⟩ := sound_arr_eq_ok h
      cases hnull
  | obj ms =>
      obtain ⟨_, -, hnull⟩ := sound_obj_eq_ok h
      cases hnull
  | _ => rw [sound] at h; nomatch h

end Tree

/-! ### Shapes -/

/-- Of a tree with `Q` the shape reads values with `P` only. -/
def Shape.Yields (shape : Shape ε α) (Q : Tree ε → Prop) (P : α → Prop) : Prop :=
  ∀ t, Q t → ∀ a, (shape t).value = .ok a → P a

namespace Shape

variable {shape : Shape ε α} {Q : Tree ε → Prop} {P : α → Prop} {t : Tree ε} {a : α}

theorem yields_readItems (h : shape.Yields Q P) {ts : List (Tree ε)} {as : List α}
    (hts : ∀ t ∈ ts, Q t) (hread : (readItems shape ts).value = .ok as) : ∀ a ∈ as, P a := by
  induction ts generalizing as with
  | nil =>
      obtain rfl : [] = as := Except.ok.inj hread
      exact fun _ => nofun
  | cons t ts ih =>
      obtain ⟨ht, hts⟩ := List.forall_mem_cons.1 hts
      obtain ⟨a, ha, hrest⟩ := Reading.exists_of_value_bind_eq_ok hread
      obtain ⟨as, has, rfl⟩ := Reading.exists_of_value_map_eq_ok hrest
      exact List.forall_mem_cons.2 ⟨h t ht a ha, ih hts has⟩

variable [Origin ε]

theorem value_mismatch_ne_ok : (mismatch t : Reading α).value ≠ .ok a := by
  cases t <;> nofun

theorem yields_list (h : shape.Yields Tree.FiniteNumbers P) :
    (list shape).Yields Tree.FiniteNumbers fun as => ∀ a ∈ as, P a := by
  intro t ht as hread
  cases t with
  | arr ts => exact yields_readItems h (Tree.finiteNumbers_arr_iff.1 ht) hread
  | _ => exact absurd hread value_mismatch_ne_ok

theorem yields_float :
    (float : Shape ε Binary64).Yields Tree.FiniteNumbers fun x => x.isFinite = true := by
  intro t ht x hread
  cases t with
  | num n =>
      rw [Tree.FiniteNumbers] at ht
      cases n with
      | integer i => exact Except.ok.inj hread ▸ ht
      | float y => exact Except.ok.inj hread ▸ ht
  | _ => exact absurd hread value_mismatch_ne_ok

theorem yields_parsed {parse : String → Option α} (h : ∀ s a, parse s = some a → P a) :
    (parsed parse : Shape ε α).Yields Q P := by
  intro t _ a hread
  obtain ⟨s, -, hparse⟩ := Reading.exists_of_value_bind_eq_ok hread
  split at hparse
  · next a' heq => exact Except.ok.inj hparse ▸ h s a' heq
  · nomatch hparse

theorem yields_oneOf {find : String → Option α} {s : String} (h : ∀ a, find s = some a → P a) :
    (oneOf find : Shape ε α).Yields (fun t => t = .str s) P := by
  rintro t rfl a hread
  rw [oneOf] at hread
  split at hread
  · next a' heq => exact Except.ok.inj hread ▸ h a' heq
  · nomatch hread

/-- A value that may be left out is read by its own shape, unless it is null. -/
theorem yields_optional (h : shape.Yields (fun t => Q t ∧ t ≠ .null) P) :
    (optional shape).Yields Q fun x => ∀ a ∈ x, P a := by
  intro t ht x hread
  have hsome (hnull : t ≠ .null) (hread : ((shape t).map some).value = .ok x) : ∀ a ∈ x, P a := by
    obtain ⟨a, ha, rfl⟩ := Reading.exists_of_value_map_eq_ok hread
    rintro a' ⟨⟩
    exact h t ⟨ht, hnull⟩ a ha
  cases t with
  | null => exact Except.ok.inj hread ▸ fun _ => nofun
  | flaw e =>
      rw [optional] at hread
      split at hread
      · nomatch hread
      · exact hsome nofun hread
  | _ => exact hsome nofun hread

/-- What is taken as it is comes in its stored form, and only null comes as null. -/
theorem yields_anything :
    (anything : Shape ε Json).Yields (fun t => t ≠ .null) fun c => c.IsStored ∧ c ≠ .null := by
  intro t hnull c hread
  rw [anything] at hread
  split at hread
  · next t' hsound =>
      obtain rfl : t'.normal = c := Except.ok.inj hread
      exact ⟨t'.isStored_normal, Tree.normal_ne_null (Tree.ne_null_of_sound hsound hnull)⟩
  · nomatch hread

end Shape

/-! ### Records -/

/-- Of a value with `Q` under its name, the field reads changes of the draft that keep `I`. -/
def Field.Keeps (field : Field ε δ) (Q : String → Tree ε → Prop) (I : δ → Prop) : Prop :=
  ∀ t, Q field.name t → ∀ put, (field.read t).value = .ok put → ∀ d, I d → I (put d)

namespace Field

variable {n : String} {shape : Shape ε α} {put : α → δ → δ} {Q : String → Tree ε → Prop}
  {P : α → Prop} {I : δ → Prop}

theorem keeps_of (hshape : shape.Yields (Q n) P) (hput : ∀ a, P a → ∀ d, I d → I (put a d)) :
    (of n shape put).Keeps Q I := by
  intro t ht change hread d hd
  obtain ⟨a, ha, rfl⟩ := Reading.exists_of_value_map_eq_ok hread
  exact hput a (hshape t ht a ha) d hd

/-- The invariant does not depend on what the field puts into the draft. -/
theorem keeps_of_put (hput : ∀ a d, I d → I (put a d)) : (of n shape put).Keeps Q I :=
  keeps_of (P := fun _ => True) (fun _ _ _ _ => trivial) fun a _ => hput a

end Field

namespace Shape

variable [Origin ε] [IsEmpty ε] {fields : List (Field ε δ)} {Q : String → Tree ε → Prop}
  {I : δ → Prop} {seen : List String} {d d' start : δ} {finish : δ → Option α} {a : α}

theorem readMembers_keeps (hfields : ∀ f ∈ fields, f.Keeps Q I) {ms : List (String × Tree ε)}
    (hms : ∀ m ∈ ms, Q m.1 m.2) (hd : I d)
    (hread : (readMembers fields skip seen d ms).value = .ok d') : I d' := by
  induction ms generalizing seen d with
  | nil => exact Except.ok.inj hread ▸ hd
  | cons m ms ih =>
      obtain ⟨n, t⟩ := m
      obtain ⟨hm, hms⟩ := List.forall_mem_cons.1 hms
      cases hfield : Keyed.get? Field.name n fields with
      | none =>
          rw [readMembers_cons_of_eq_none hfield, skip_eq, Reading.pure_bind] at hread
          exact ih hms hd hread
      | some field =>
          have hname : field.name = n := Keyed.key_of_get?_eq_some Field.name hfield
          have hmem : field ∈ fields := List.mem_of_find?_eq_some hfield
          rw [readMembers_cons_of_eq_some hfield] at hread
          split at hread
          · nomatch hread
          · obtain ⟨put, hput, hread⟩ := Reading.exists_of_value_bind_eq_ok hread
            exact ih hms (hfields field hmem t (hname ▸ hm) put hput d hd) hread

omit [IsEmpty ε] in
theorem readPositions_keeps (hfields : ∀ f ∈ fields, f.Keeps Q I) {ts : List (Tree ε)}
    (hts : ∀ t ∈ ts, ∀ n, Q n t) (hd : I d)
    (hread : (readPositions fields d ts).value = .ok d') : I d' := by
  induction fields generalizing ts d with
  | nil =>
      cases ts with
      | nil => exact Except.ok.inj hread ▸ hd
      | cons t ts =>
          obtain ⟨-, -, hfail⟩ := Reading.exists_of_value_bind_eq_ok hread
          nomatch hfail
  | cons field fields ih =>
      cases ts with
      | nil => exact Except.ok.inj hread ▸ hd
      | cons t ts =>
          obtain ⟨hfield, hfields⟩ := List.forall_mem_cons.1 hfields
          obtain ⟨ht, hts⟩ := List.forall_mem_cons.1 hts
          obtain ⟨put, hput, hread⟩ := Reading.exists_of_value_bind_eq_ok hread
          exact ih hfields hts (hfield t (ht _) put hput d hd) hread

omit [Origin ε] [IsEmpty ε] in
theorem eq_some_of_value_finished (h : (finished finish d).value = .ok a) : finish d = some a := by
  rw [finished] at h
  split at h
  · next a' heq => exact heq.trans (congrArg some (Except.ok.inj h))
  · nomatch h

/-- A record that is given as an object comes from a draft with the invariant. -/
theorem exists_of_value_record_obj (hfields : ∀ f ∈ fields, f.Keeps Q I) (hstart : I start)
    {ms : List (String × Tree ε)} (hms : ∀ m ∈ ms, Q m.1 m.2)
    (hread : (record fields start finish (.obj ms)).value = .ok a) :
    ∃ d, I d ∧ finish d = some a := by
  rw [record_obj] at hread
  obtain ⟨d, hd, hfinish⟩ := Reading.exists_of_value_bind_eq_ok hread
  exact ⟨d, readMembers_keeps hfields hms hstart hd, eq_some_of_value_finished hfinish⟩

theorem yields_record {P : α → Prop}
    (hfields : ∀ f ∈ fields, f.Keeps (fun _ => Tree.FiniteNumbers) I) (hstart : I start)
    (hfinish : ∀ d a, I d → finish d = some a → P a) :
    (record fields start finish).Yields Tree.FiniteNumbers P := by
  intro t ht a hread
  cases t with
  | obj ms =>
      obtain ⟨d, hd, ha⟩ :=
        exists_of_value_record_obj hfields hstart (Tree.finiteNumbers_obj_iff.1 ht) hread
      exact hfinish d a hd ha
  | arr ts =>
      have hts : ∀ t ∈ ts, String → t.FiniteNumbers :=
        fun t hmem _ => Tree.finiteNumbers_arr_iff.1 ht t hmem
      obtain ⟨d, hd, ha⟩ := Reading.exists_of_value_bind_eq_ok hread
      exact hfinish d a (readPositions_keeps hfields hts hstart hd) (eq_some_of_value_finished ha)
  | _ => exact absurd hread value_mismatch_ne_ok

end Shape

end SegmentFlow
