import SegmentFlow.Proofs.Binary64.Order
import SegmentFlow.Proofs.Json.Invariants
/-!
# What a text is read into

A number of a text either fits a word of 64 bits or is rounded to a float, and where the float would
not be finite there is a flaw instead. So all numbers that a text is read into are finite, and its
value is one that a store holds.
-/

namespace SegmentFlow

/-! ### Numbers -/

namespace Binary64

theorem isFinite_neg (x : Binary64) : (-x).isFinite = x.isFinite := by
  change x.neg.isFinite = _
  cases x <;> rfl

theorem isFinite_of_ofDecimal {negative : Bool} {digits : Nat} {exponent : Int} {x : Binary64}
    (h : ofDecimal negative digits exponent = some x) : x.isFinite = true := by
  rw [ofDecimal.eq_def] at h
  obtain ⟨hfinite, hx⟩ := Option.ite_none_right_eq_some.1 h
  obtain rfl := Option.some.inj hx
  split
  · rwa [isFinite_neg]
  · exact hfinite

/-- Rounding a whole number of 64 bits does not lead out of the format. -/
theorem isFinite_ofInt {i : Int} (hi : i.natAbs ≤ UInt64.size) : (ofInt i).isFinite = true := by
  have hbound : Representable (UInt64.size <<< 1074) := ⟨by decide +kernel, by decide +kernel⟩
  have hle : i.natAbs <<< 1074 ≤ UInt64.size <<< 1074 := by
    rw [Nat.shiftLeft_eq, Nat.shiftLeft_eq]
    exact Nat.mul_le_mul_right _ hi
  rw [ofInt, round, dif_pos (Nat.lt_of_le_of_lt (nearest_le hbound hle) hbound.1)]
  rfl

end Binary64

namespace Scan

open SegmentFlow.Tree

theorem finiteNumbers_integer {i : Int} (hi : i.natAbs ≤ UInt64.size) :
    (num (.integer i) : Tree Flaw).FiniteNumbers := by
  rw [FiniteNumbers]
  exact Binary64.isFinite_ofInt hi

theorem finiteNumbers_flaw (f : Flaw) : (flaw f).FiniteNumbers := by
  simp [FiniteNumbers]

theorem finiteNumbers_float (negative : Bool) (digits : Nat) (exponent : Int) :
    (float negative digits exponent).FiniteNumbers := by
  rw [float]
  split
  · next x hx =>
      rw [FiniteNumbers]
      exact Binary64.isFinite_of_ofDecimal hx
  · exact finiteNumbers_flaw _

theorem absorb_lt {n : Nat} (hn : n < UInt64.size) (ds : List Char) :
    (absorb n ds).1 < UInt64.size := by
  induction ds generalizing n with
  | nil => exact hn
  | cons d ds ih =>
      rw [absorb]
      split
      · next hlonger => exact ih hlonger
      · exact hn

theorem finiteNumbers_whole (negative : Bool) {digits : Nat} (hdigits : digits < UInt64.size) :
    (whole negative digits).FiniteNumbers := by
  have hle : digits ≤ UInt64.size := Nat.le_of_lt hdigits
  rw [whole]
  split
  · split
    · exact finiteNumbers_integer (by rwa [Int.natAbs_neg, Int.natAbs_natCast])
    · exact finiteNumbers_float _ _ _
  · exact finiteNumbers_integer (by rwa [Int.natAbs_natCast])

theorem finiteNumbers_exponent (negative : Bool) (digits : Nat) (power : Int) (cs : List Char) :
    (exponent negative digits power cs).1.FiniteNumbers := by
  rw [exponent.eq_def]
  dsimp only
  split
  · exact finiteNumbers_flaw _
  · exact finiteNumbers_flaw _
  · exact finiteNumbers_float _ _ _

theorem finiteNumbers_fraction (negative : Bool) (digits : Nat) (power : Int) (cs : List Char) :
    (fraction negative digits power cs).1.FiniteNumbers := by
  rw [fraction.eq_def]
  split
  · exact finiteNumbers_flaw _
  · exact finiteNumbers_flaw _
  · dsimp only
    split
    · exact finiteNumbers_exponent _ _ _ _
    · exact finiteNumbers_exponent _ _ _ _
    · exact finiteNumbers_float _ _ _

theorem finiteNumbers_magnitude (negative : Bool) (cs : List Char) :
    (magnitude negative cs).1.FiniteNumbers := by
  rw [magnitude.eq_def]
  split
  · exact finiteNumbers_flaw _
  · exact finiteNumbers_flaw _
  · exact finiteNumbers_flaw _
  · dsimp only
    split
    · exact finiteNumbers_fraction _ _ _ _
    · exact finiteNumbers_exponent _ _ _ _
    · exact finiteNumbers_exponent _ _ _ _
    · split
      · exact finiteNumbers_whole _ (absorb_lt (by decide) _)
      · exact finiteNumbers_float _ _ _

theorem finiteNumbers_number (cs : List Char) : (number cs).1.FiniteNumbers := by
  rw [number.eq_def]
  split
  · exact finiteNumbers_magnitude _ _
  · exact finiteNumbers_magnitude _ _

/-! ### Values -/

theorem finiteNumbers_literal {place : Place} {t : Tree Flaw} (ht : t.FiniteNumbers)
    (expected rest : List Char) : (literal place t expected rest).1.FiniteNumbers := by
  induction expected generalizing rest with
  | nil => exact ht
  | cons e es ih =>
      cases rest with
      | nil => exact finiteNumbers_flaw _
      | cons c cs =>
          rw [literal]
          split
          · exact ih cs
          · exact finiteNumbers_flaw _

theorem finiteNumbers_string (cs : List Char) : (string cs).1.FiniteNumbers := by
  rw [string]
  split
  · split
    · simp [FiniteNumbers]
    · exact finiteNumbers_flaw _
  · exact finiteNumbers_flaw _

/-- A value that stands too deep is a flaw. -/
theorem finiteNumbers_ifShallow (depth : Nat) {found : Scanned} (hfound : found.1.FiniteNumbers) :
    (ifShallow depth found).1.FiniteNumbers := by
  rw [ifShallow]
  split
  · exact finiteNumbers_flaw _
  · exact hfound

/-- The values and containers that are scanned with so much fuel have finite numbers. -/
structure Finite (fuel : Nat) : Prop where
  value : ∀ depth cs, (value fuel depth cs).1.FiniteNumbers
  items : ∀ depth first cs, ∀ t ∈ (items fuel depth first cs).1, t.FiniteNumbers
  members : ∀ depth first cs, ∀ m ∈ (members fuel depth first cs).1, m.2.FiniteNumbers

theorem finite_zero : Finite 0 := by
  refine ⟨fun depth cs => ?_, fun depth first cs => ?_, fun depth first cs => ?_⟩
  · rw [Scan.value]
    exact finiteNumbers_flaw _
  · rw [Scan.items, List.forall_mem_singleton]
    exact finiteNumbers_flaw _
  · rw [Scan.members, List.forall_mem_singleton]
    exact finiteNumbers_flaw _

variable {fuel : Nat}

theorem Finite.value_succ (h : Finite fuel) (depth : Nat) (cs : List Char) :
    (Scan.value (fuel + 1) depth cs).1.FiniteNumbers := by
  rw [Scan.value]
  split
  · exact finiteNumbers_flaw _
  · exact finiteNumbers_ifShallow _ (finiteNumbers_arr_iff.2 (h.items _ _ _))
  · exact finiteNumbers_ifShallow _ (finiteNumbers_obj_iff.2 (h.members _ _ _))
  · exact finiteNumbers_string _
  · exact finiteNumbers_literal (by simp [FiniteNumbers]) _ _
  · exact finiteNumbers_literal (by simp [FiniteNumbers]) _ _
  · exact finiteNumbers_literal (by simp [FiniteNumbers]) _ _
  · split
    · exact finiteNumbers_number _
    · exact finiteNumbers_flaw _

theorem Finite.items_succ (h : Finite fuel) (depth : Nat) (first : Bool) (cs : List Char) :
    ∀ t ∈ (Scan.items (fuel + 1) depth first cs).1, t.FiniteNumbers := by
  have hstop (place : Place) (e : ReadError) : ∀ t ∈ [stop place e], t.FiniteNumbers :=
    List.forall_mem_singleton.2 (finiteNumbers_flaw _)
  rw [Scan.items.eq_def]
  dsimp -zeta only
  extract_lets item
  have hitem (cs : List Char) : ∀ t ∈ (item cs).1, t.FiniteNumbers := by
    have hvalue := h.value depth cs
    dsimp only [item]
    split
    · next t rest heq =>
        rw [heq] at hvalue
        exact List.forall_mem_cons.2 ⟨hvalue, h.items _ _ _⟩
    · next t heq =>
        rw [heq] at hvalue
        exact List.forall_mem_singleton.2 hvalue
  split
  · exact hstop _ _
  · exact List.forall_mem_nil _
  · exact hitem _
  · split
    · exact hitem _
    · exact hstop _ _

theorem Finite.members_succ (h : Finite fuel) (depth : Nat) (first : Bool) (cs : List Char) :
    ∀ m ∈ (Scan.members (fuel + 1) depth first cs).1, m.2.FiniteNumbers := by
  have hflaw (name : String) (f : Flaw) :
      ∀ m ∈ [(name, (flaw f : Tree Flaw))], m.2.FiniteNumbers :=
    List.forall_mem_singleton.2 (finiteNumbers_flaw f)
  rw [Scan.members.eq_def]
  dsimp -zeta only
  extract_lets more member
  have hmore (m : String × Tree Flaw) (rest : List Char) (hm : m.2.FiniteNumbers) :
      ∀ m' ∈ (more m rest).1, m'.2.FiniteNumbers :=
    List.forall_mem_cons.2 ⟨hm, h.members _ _ _⟩
  have hmember (cs : List Char) : ∀ m ∈ (member cs).1, m.2.FiniteNumbers := by
    dsimp only [member]
    split
    · exact hflaw _ _
    · split
      · split
        · exact hflaw _ _
        · next cs' _ =>
            have hvalue := h.value depth cs'
            split
            · next t rest heq =>
                rw [heq] at hvalue
                exact hmore _ _ hvalue
            · next t heq =>
                rw [heq] at hvalue
                exact List.forall_mem_singleton.2 hvalue
        · exact hflaw _ _
      · split
        · exact hflaw _ _
        · split
          · exact hmore _ _ (finiteNumbers_flaw _)
          · exact hflaw _ _
        · exact hflaw _ _
      · exact hflaw _ _
      · exact hflaw _ _
    · exact hflaw _ _
  split
  · exact hflaw _ _
  · exact List.forall_mem_nil _
  · split
    · exact hflaw _ _
    · exact hmember _
  · split
    · exact hmember _
    · exact hflaw _ _

theorem finite (fuel : Nat) : Finite fuel := by
  induction fuel with
  | zero => exact finite_zero
  | succ fuel ih => exact ⟨ih.value_succ, ih.items_succ, ih.members_succ⟩

end Scan

/-! ### Taken as it is -/

namespace Tree

variable {ε δ : Type}

mutual

theorem finiteNumbers_normal : ∀ t : Tree ε, t.FiniteNumbers → t.normal.FiniteNumbers
  | null | bool _ | num _ | str _ | flaw _ => by rw [normal] <;> first | exact id | nofun
  | arr items => by
    rw [normal, finiteNumbers_arr_iff, finiteNumbers_arr_iff]
    exact finiteNumbers_of_mem_normalItems items
  | obj members => by
    rw [normal, finiteNumbers_obj_iff, finiteNumbers_obj_iff]
    intro h m hm
    exact finiteNumbers_of_mem_normalMembers members h m (Dictionary.mem_of_mem_ofList hm)

theorem finiteNumbers_of_mem_normalItems : ∀ items : List (Tree ε),
    (∀ t ∈ items, t.FiniteNumbers) → ∀ t ∈ normalItems items, t.FiniteNumbers
  | [] => id
  | t :: ts => by
    rw [normalItems, List.forall_mem_cons, List.forall_mem_cons]
    exact And.imp (finiteNumbers_normal t) (finiteNumbers_of_mem_normalItems ts)

theorem finiteNumbers_of_mem_normalMembers : ∀ members : List (String × Tree ε),
    (∀ m ∈ members, m.2.FiniteNumbers) → ∀ m ∈ normalMembers members, m.2.FiniteNumbers
  | [] => id
  | (_, t) :: ms => by
    rw [normalMembers, List.forall_mem_cons, List.forall_mem_cons]
    exact And.imp (finiteNumbers_normal t) (finiteNumbers_of_mem_normalMembers ms)

end

mutual

/-- What is left of a tree without flaws has its numbers. -/
theorem finiteNumbers_of_sound : ∀ t : Tree ε, t.FiniteNumbers → ∀ t' : Tree δ,
    t.sound = .ok t' → t'.FiniteNumbers
  | null | bool _ | str _ => by
    rintro - t' h
    rw [sound] at h
    simp [← Except.ok.inj h, FiniteNumbers]
  | num n => by
    intro hn t' h
    rw [sound] at h
    rwa [← Except.ok.inj h, FiniteNumbers]
  | arr items => by
    intro hitems t' h
    obtain ⟨us, hus, rfl⟩ := sound_arr_eq_ok h
    rw [finiteNumbers_arr_iff] at hitems ⊢
    exact finiteNumbers_of_soundItems items hitems us hus
  | obj members => by
    intro hmembers t' h
    obtain ⟨us, hus, rfl⟩ := sound_obj_eq_ok h
    rw [finiteNumbers_obj_iff] at hmembers ⊢
    exact finiteNumbers_of_soundMembers members hmembers us hus
  | flaw e => by
    rintro - t' h
    rw [sound] at h
    cases h

theorem finiteNumbers_of_soundItems : ∀ items : List (Tree ε), (∀ t ∈ items, t.FiniteNumbers) →
    ∀ us : List (Tree δ), soundItems items = .ok us → ∀ u ∈ us, u.FiniteNumbers
  | [] => by
    rintro - us h
    rw [soundItems] at h
    rw [← Except.ok.inj h]
    exact List.forall_mem_nil _
  | t :: ts => by
    intro hitems us h
    rw [List.forall_mem_cons] at hitems
    obtain ⟨u, us, hu, hus, rfl⟩ := soundItems_cons_eq_ok h
    exact List.forall_mem_cons.2
      ⟨finiteNumbers_of_sound t hitems.1 u hu, finiteNumbers_of_soundItems ts hitems.2 us hus⟩

theorem finiteNumbers_of_soundMembers : ∀ members : List (String × Tree ε),
    (∀ m ∈ members, m.2.FiniteNumbers) → ∀ us : List (String × Tree δ),
      soundMembers members = .ok us → ∀ u ∈ us, u.2.FiniteNumbers
  | [] => by
    rintro - us h
    rw [soundMembers] at h
    rw [← Except.ok.inj h]
    exact List.forall_mem_nil _
  | (_, t) :: ms => by
    intro hmembers us h
    rw [List.forall_mem_cons] at hmembers
    obtain ⟨u, us, hu, hus, rfl⟩ := soundMembers_cons_eq_ok h
    exact List.forall_mem_cons.2
      ⟨finiteNumbers_of_sound t hmembers.1 u hu, finiteNumbers_of_soundMembers ms hmembers.2 us hus⟩

end

end Tree

namespace Shape

/-- What is taken as it is keeps its numbers. -/
theorem finiteNumbers_anything {ε : Type} [Origin ε] :
    (anything : Shape ε Json).Yields Tree.FiniteNumbers fun c => c.IsStored ∧ c.FiniteNumbers := by
  intro t ht c hread
  rw [anything] at hread
  split at hread
  · next t' hsound =>
      obtain rfl : t'.normal = c := Except.ok.inj hread
      have hnumbers : t'.FiniteNumbers := Tree.finiteNumbers_of_sound t ht t' hsound
      exact ⟨t'.isStored_normal, Tree.finiteNumbers_normal t' hnumbers⟩
  · cases hread

end Shape

namespace Tree

/-- All numbers of a text are finite. -/
theorem finiteNumbers_ofText (text : String) : (Tree.ofText text).1.FiniteNumbers :=
  (Scan.finite _).value _ _

/-- A text is read into a value that a store holds, and of finite numbers. -/
theorem isStored_and_finiteNumbers_of_parse {text : String} {t : Json} (h : parse text = .ok t) :
    t.IsStored ∧ t.FiniteNumbers := by
  obtain ⟨t', ht', hcomplete⟩ := Reading.exists_of_value_bind_eq_ok h
  have hread := Shape.finiteNumbers_anything _ (finiteNumbers_ofText text) t' ht'
  split at hcomplete
  · exact Except.ok.inj hcomplete ▸ hread
  · cases hcomplete

end Tree

end SegmentFlow
