import Mathlib.Data.List.Pairwise
import SegmentFlow.Json.Reading
import SegmentFlow.Proofs.Json.Stored
import SegmentFlow.Proofs.Keyed
/-!
# Reading records

What a record is read from does not depend on everything that its object says. A member that the
record does not know is passed over, and a value may be replaced by one that its field reads in the
same way; both leave the whole reading alone, its error and its events included.

The order of the members does not matter to the value either, as long as the fields of the record
do not undo each other's changes. So a record that wrote its members in the order of its fields is
read back from the stored form of what it wrote.
-/

namespace SegmentFlow

variable {ε α β γ δ : Type}

namespace Reading

variable {x : Reading α} {a : α}

theorem pure_bind (f : α → Reading β) : (Reading.pure a).bind f = f a := rfl

theorem map_bind (f : α → Reading β) (g : β → γ) :
    (x.bind f).map g = x.bind fun a => (f a).map g := by
  obtain ⟨value, events⟩ := x
  cases value <;> rfl

theorem bind_map (f : α → β) (g : β → Reading γ) : (x.map f).bind g = x.bind fun a => g (f a) := by
  obtain ⟨value, events⟩ := x
  cases value <;> rfl

theorem bind_congr {f g : α → Reading β} (h : ∀ a, x.value = .ok a → f a = g a) :
    x.bind f = x.bind g := by
  obtain ⟨value, events⟩ := x
  cases value with
  | error e => rfl
  | ok a =>
      have hsame : f a = g a := h a rfl
      simp only [Reading.bind, hsame]

theorem value_bind (h : x.value = .ok a) (f : α → Reading β) : (x.bind f).value = (f a).value := by
  rw [Reading.bind, h]

theorem value_map (h : x.value = .ok a) (f : α → β) : (x.map f).value = .ok (f a) := by
  rw [Reading.map, h]
  rfl

theorem exists_of_value_map_eq_ok {f : α → β} {b : β} (h : (x.map f).value = .ok b) :
    ∃ a, x.value = .ok a ∧ f a = b := by
  rw [Reading.map] at h
  cases hvalue : x.value with
  | error e => rw [hvalue] at h; nomatch h
  | ok a => rw [hvalue] at h; exact ⟨a, rfl, Except.ok.inj h⟩

end Reading

namespace Shape

/-- A member that a record does not know is passed over. -/
def skip [Origin ε] : String → Shape ε (δ → δ) :=
  fun _ t => (ignored t).map fun _ => id

variable [Origin ε] {fields : List (Field ε δ)} {other : String → Shape ε (δ → δ)}
  {field : Field ε δ} {seen : List String} {d d' : δ} {n : String} {t : Tree ε}
  {ms ms' : List (String × Tree ε)}

theorem record_obj (start : δ) (finish : δ → Option α) :
    record fields start finish (.obj ms)
      = (readMembers fields skip [] start ms).bind (finished finish) := rfl

variable [IsEmpty ε]

theorem skip_eq (name : String) (t : Tree ε) : (skip name t : Reading (δ → δ)) = Reading.pure id := by
  rw [skip, ignored, Tree.skipError?_eq_none]
  rfl

theorem readMembers_cons_of_eq_some (hfield : Keyed.get? Field.name n fields = some field) :
    readMembers fields other seen d ((n, t) :: ms)
      = if n ∈ seen then Reading.fail .shape
        else (field.read t).bind fun put => readMembers fields other (n :: seen) (put d) ms := by
  rw [Keyed.get?] at hfield
  rw [readMembers, Tree.misplaced?_eq_none, hfield]

theorem readMembers_cons_of_eq_none (hfield : Keyed.get? Field.name n fields = none) :
    readMembers fields other seen d ((n, t) :: ms)
      = (other n t).bind fun put => readMembers fields other seen (put d) ms := by
  rw [Keyed.get?] at hfield
  rw [readMembers, Tree.misplaced?_eq_none, hfield]

theorem readMembers_skip_cons (hn : n ∉ fields.map Field.name) :
    readMembers fields skip seen d ((n, t) :: ms) = readMembers fields skip seen d ms := by
  have hfield : Keyed.get? Field.name n fields = none := by
    rwa [Keyed.get?_eq_none_iff]
  rw [readMembers_cons_of_eq_none hfield, skip_eq, Reading.pure_bind]
  rfl

/-- Members that the record does not know may be left out. -/
theorem readMembers_filter {p : String × Tree ε → Bool}
    (hp : ∀ m ∈ ms, p m = false → m.1 ∉ fields.map Field.name) :
    readMembers fields skip seen d (ms.filter p) = readMembers fields skip seen d ms := by
  induction ms generalizing seen d with
  | nil => rfl
  | cons m ms ih =>
      obtain ⟨hm, hms⟩ := List.forall_mem_cons.1 hp
      rw [List.filter_cons]
      split
      · cases hfield : Keyed.get? Field.name m.1 fields with
        | none =>
            rw [readMembers_cons_of_eq_none hfield, readMembers_cons_of_eq_none hfield]
            simp only [ih hms]
        | some field =>
            rw [readMembers_cons_of_eq_some hfield, readMembers_cons_of_eq_some hfield]
            simp only [ih hms]
      · next hdropped =>
          rw [readMembers_skip_cons (hm (Bool.eq_false_iff.2 hdropped)), ih hms]

/-- Objects that differ in a member that the record does not know are read in the same way. -/
theorem record_lift_eq_of_erase_eq {name : String} (hname : name ∉ fields.map Field.name)
    {ms ms' : List (String × Json)} (h : Dictionary.erase name ms' = Dictionary.erase name ms)
    (start : δ) (finish : δ → Option α) :
    record fields start finish (Tree.lift (.obj ms'))
      = record fields start finish (Tree.lift (.obj ms)) := by
  have herase (ms : List (String × Json)) :
      readMembers fields skip [] start (ms.map fun m => (m.1, m.2.lift))
        = readMembers fields skip [] start
            ((Dictionary.erase name ms).map fun m => (m.1, m.2.lift)) := by
    rw [← readMembers_filter (p := fun m => m.1 != name), List.filter_map]
    · rfl
    · intro m _ hm
      obtain rfl : m.1 = name := by simpa using hm
      exact hname
  rw [Tree.lift_obj, Tree.lift_obj, record_obj, record_obj, herase ms', h, ← herase ms]

/-- A value may be replaced by one that the field of its name reads in the same way. -/
theorem readMembers_congr
    (h : List.Forall₂ (fun m m' : String × Tree ε => m.1 = m'.1
      ∧ ∀ field ∈ fields, field.name = m.1 → field.read m.2 = field.read m'.2) ms ms') :
    readMembers fields skip seen d ms = readMembers fields skip seen d ms' := by
  induction h generalizing seen d with
  | nil => rfl
  | @cons m m' ms ms' hm hrest ih =>
      obtain ⟨n, t⟩ := m
      obtain ⟨n', t'⟩ := m'
      obtain ⟨rfl, hread⟩ := hm
      cases hfield : Keyed.get? Field.name n fields with
      | none =>
          rw [readMembers_cons_of_eq_none hfield, readMembers_cons_of_eq_none hfield, skip_eq,
            skip_eq]
          simp only [ih]
      | some field =>
          have hname : field.name = n := Keyed.key_of_get?_eq_some Field.name hfield
          have hmem : field ∈ fields := List.mem_of_find?_eq_some hfield
          rw [readMembers_cons_of_eq_some hfield, readMembers_cons_of_eq_some hfield,
            hread field hmem hname]
          simp only [ih]

omit [Origin ε] [IsEmpty ε] in
theorem readItems_congr {shape : Shape ε α} {ts ts' : List (Tree ε)}
    (h : List.Forall₂ (fun t t' => shape t = shape t') ts ts') :
    readItems shape ts = readItems shape ts' := by
  induction h with
  | nil => rfl
  | cons hitem _ ih => rw [readItems, readItems, hitem, ih]

end Shape

/-! ### The order of the members -/

namespace Field

variable {fields : List (Field ε δ)} {d d' : δ} {ms ms' : List (String × Tree ε)}

/-- What two fields read can be put in either order. -/
def Commute (f g : Field ε δ) : Prop :=
  ∀ t t' put put', (f.read t).value = .ok put → (g.read t').value = .ok put' →
    ∀ d, put (put' d) = put' (put d)

instance : Std.Symm (Commute : Field ε δ → Field ε δ → Prop) :=
  ⟨fun _ _ h t t' put put' hread hread' d => (h t' t put' put hread' hread d).symm⟩

theorem commute_of {n n' : String} {shape : Shape ε α} {shape' : Shape ε β} {put : α → δ → δ}
    {put' : β → δ → δ} (h : ∀ a b d, put a (put' b d) = put' b (put a d)) :
    (of n shape put).Commute (of n' shape' put') := by
  intro t t' p p' hread hread' d
  obtain ⟨a, -, rfl⟩ := Reading.exists_of_value_map_eq_ok hread
  obtain ⟨b, -, rfl⟩ := Reading.exists_of_value_map_eq_ok hread'
  exact h a b d

/-- The fields of a record are told apart by their names and do not interfere. -/
structure Independent (fields : List (Field ε δ)) : Prop where
  nodup_names : (fields.map name).Nodup
  commute : fields.Pairwise Commute

theorem Independent.commute_of_ne (h : Independent fields) {f g : Field ε δ} (hf : f ∈ fields)
    (hg : g ∈ fields) (hne : f.name ≠ g.name) : f.Commute g :=
  h.commute.forall hf hg fun heq => hne (congrArg name heq)

/-- Reading members takes the draft `d` to `d'`, each of them by the field of its name. -/
inductive ReadsTo (fields : List (Field ε δ)) : δ → List (String × Tree ε) → δ → Prop
  | nil {d : δ} : ReadsTo fields d [] d
  | cons {d d' : δ} {field : Field ε δ} {t : Tree ε} {put : δ → δ}
      {ms : List (String × Tree ε)} (hfield : field ∈ fields)
      (hread : (field.read t).value = .ok put) (hrest : ReadsTo fields (put d) ms d') :
      ReadsTo fields d ((field.name, t) :: ms) d'

theorem ReadsTo.perm (hfields : Independent fields) (hperm : ms.Perm ms')
    (hnodup : (ms.map Prod.fst).Nodup) (h : ReadsTo fields d ms d') :
    ReadsTo fields d ms' d' := by
  induction hperm generalizing d with
  | nil => exact h
  | cons m _ ih =>
      obtain _ | ⟨hfield, hread, hrest⟩ := h
      exact .cons hfield hread (ih (List.nodup_cons.1 hnodup).2 hrest)
  | swap m m' ms =>
      obtain _ | ⟨hfield', hread', hrest⟩ := h
      obtain _ | ⟨hfield, hread, hrest⟩ := hrest
      have hne : _ ≠ _ := fun heq => (List.nodup_cons.1 hnodup).1 (List.mem_cons.2 (.inl heq))
      have hcommute := hfields.commute_of_ne hfield hfield' hne.symm
      rw [hcommute _ _ _ _ hread hread'] at hrest
      exact .cons hfield hread (.cons hfield' hread' hrest)
  | trans hperm _ ih ih' =>
      exact ih' ((hperm.map Prod.fst).nodup_iff.1 hnodup) (ih hnodup h)

theorem ReadsTo.value_readMembers [Origin ε] [IsEmpty ε] (hnames : (fields.map name).Nodup)
    (h : ReadsTo fields d ms d') (hnodup : (ms.map Prod.fst).Nodup) {seen : List String}
    (hseen : ∀ n ∈ ms.map Prod.fst, n ∉ seen) :
    (Shape.readMembers fields Shape.skip seen d ms).value = .ok d' := by
  induction h generalizing seen with
  | nil => rfl
  | @cons d d' field t put ms hfield hread _ ih =>
      rw [List.map_cons, List.nodup_cons] at hnodup
      rw [List.map_cons, List.forall_mem_cons] at hseen
      rw [Shape.readMembers_cons_of_eq_some (Keyed.get?_of_mem name hnames hfield),
        if_neg hseen.1, Reading.value_bind hread]
      refine ih hnodup.2 fun n hn => ?_
      rw [List.mem_cons, not_or]
      exact ⟨fun heq => hnodup.1 (heq ▸ hn), hseen.2 n hn⟩

end Field

end SegmentFlow
