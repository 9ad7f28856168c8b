import Mathlib.Algebra.Group.Nat.Defs
import SegmentFlow.Binary64.Basic
/-!
# Rounding keeps the order

A sum is rounded, so it may differ from the exact one, but it never gets past a number of the format:
a number that is at most the exact sum is at most the rounded one. Hence adding what is not negative
never leads to a lower number, however far apart the two terms are.
-/

namespace SegmentFlow.Binary64

/-! ### Rounding a whole number -/

/-- The distance of the multiples that a whole number is rounded to. -/
def gap (n : Nat) : Nat :=
  2 ^ (n.log2 - 52)

/-- A whole number is rounded to one of the two multiples around it, and only down if it is one. -/
theorem nearest_one (n : Nat) :
    nearest n 1 = gap n * (n / gap n)
      ∨ 0 < n % gap n ∧ nearest n 1 = gap n * (n / gap n + 1) := by
  have hpos : 0 < gap n := Nat.two_pow_pos _
  simp only [nearest, Nat.div_one, Nat.shiftLeft_eq, Nat.one_mul]
  rw [← gap]
  split
  · rename_i hup
    exact .inr ⟨by omega, Nat.mul_comm _ _⟩
  · exact .inl (Nat.mul_comm _ _)

theorem le_nearest_of_gap_dvd {v n : Nat} (hdvd : gap n ∣ v) (hle : v ≤ n) : v ≤ nearest n 1 := by
  obtain ⟨k, rfl⟩ := hdvd
  have hk : k ≤ n / gap n :=
    (Nat.le_div_iff_mul_le (Nat.two_pow_pos _)).2 (Nat.mul_comm k _ ▸ hle)
  rcases nearest_one n with hdown | ⟨-, hup⟩
  · rw [hdown]
    exact Nat.mul_le_mul_left _ hk
  · rw [hup]
    exact Nat.mul_le_mul_left _ (Nat.le_succ_of_le hk)

theorem nearest_le_of_gap_dvd {v n : Nat} (hdvd : gap n ∣ v) (hle : n ≤ v) : nearest n 1 ≤ v := by
  obtain ⟨k, rfl⟩ := hdvd
  have hsplit := Nat.div_add_mod n (gap n)
  rcases nearest_one n with hdown | ⟨hrest, hup⟩
  · omega
  · have hlow : n / gap n < k := by
      refine Nat.lt_of_mul_lt_mul_left (a := gap n) ?_
      omega
    rw [hup]
    exact Nat.mul_le_mul_left _ hlow

theorem gap_dvd_of_log2_eq {u n : Nat} (hu : Representable u) (hlog : u.log2 = n.log2) :
    gap n ∣ u := by
  have hdvd := hu.2
  rwa [hlog, Nat.shiftLeft_eq, Nat.one_mul] at hdvd

theorem log2_le_log2 {u n : Nat} (hle : u ≤ n) : u.log2 ≤ n.log2 := by
  rcases Nat.eq_zero_or_pos u with rfl | hpos
  · rw [Nat.log2_zero]
    exact Nat.zero_le _
  · exact (Nat.le_log2 (by omega)).2 (Nat.le_trans (Nat.log2_self_le (by omega)) hle)

/-- Rounding does not get below a number of the format. -/
theorem le_nearest {u n : Nat} (hu : Representable u) (hle : u ≤ n) : u ≤ nearest n 1 := by
  rcases Nat.lt_or_eq_of_le (log2_le_log2 hle) with hlog | hlog
  · have hpos : n ≠ 0 := by
      rintro rfl
      rw [Nat.log2_zero] at hlog
      omega
    calc
      u ≤ 2 ^ (u.log2 + 1) := Nat.le_of_lt Nat.lt_log2_self
      _ ≤ 2 ^ n.log2 := Nat.pow_le_pow_right (by decide) hlog
      _ ≤ nearest n 1 :=
        le_nearest_of_gap_dvd (Nat.pow_dvd_pow 2 (Nat.sub_le _ _)) (Nat.log2_self_le hpos)
  · exact le_nearest_of_gap_dvd (gap_dvd_of_log2_eq hu hlog) hle

/-- Rounding does not get above a number of the format. -/
theorem nearest_le {u n : Nat} (hu : Representable u) (hle : n ≤ u) : nearest n 1 ≤ u := by
  rcases Nat.lt_or_eq_of_le (log2_le_log2 hle) with hlog | hlog
  · have hpos : u ≠ 0 := by
      rintro rfl
      rw [Nat.log2_zero] at hlog
      omega
    calc
      nearest n 1 ≤ 2 ^ (n.log2 + 1) :=
        nearest_le_of_gap_dvd (Nat.pow_dvd_pow 2 (by omega)) (Nat.le_of_lt Nat.lt_log2_self)
      _ ≤ 2 ^ u.log2 := Nat.pow_le_pow_right (by decide) hlog
      _ ≤ u := Nat.log2_self_le hpos
  · exact nearest_le_of_gap_dvd (gap_dvd_of_log2_eq hu hlog.symm) hle

/-! ### The order -/

theorem lt_irrefl (x : Binary64) : ¬ x < x := by
  change ¬ lt x x = true
  cases x <;> simp [lt]

theorem lt_trans {x y z : Binary64} (hxy : x < y) (hyz : y < z) : x < z := by
  change lt x y = true at hxy
  change lt y z = true at hyz
  change lt x z = true
  cases x <;> cases y <;> cases z <;> simp_all [lt]
  omega

/-- A finite number that is not at most `y` lies above everything that is. -/
theorem lt_of_le_of_not_le {x y z : Binary64} (hxy : x ≤ y) (hyz : ¬ z ≤ y)
    (hz : z.isFinite = true) : x < z := by
  change le x y = true at hxy
  change ¬ le z y = true at hyz
  change lt x z = true
  cases x <;> cases y <;> cases z <;> simp_all [lt, le, isFinite]
  omega

/-! ### Adding what is not negative -/

/-- What is at most an exact sum is at most the rounded one. -/
theorem le_round {negative zeroSign : Bool} {units : Nat} (hunits : Representable units) {sum : Int}
    (hle : signed negative units ≤ sum) :
    finite negative units hunits
      ≤ round (if sum = 0 then zeroSign else decide (sum < 0)) sum.natAbs 1 := by
  change le _ _ = true
  rw [round]
  split
  · rename_i hbound
    refine decide_eq_true ?_
    rcases Int.lt_trichotomy sum 0 with hneg | rfl | hpos
    · have hnegative : negative = true := by
        cases negative with
        | true => rfl
        | false => rw [signed, if_neg Bool.false_ne_true] at hle; omega
      subst hnegative
      rw [signed, if_pos rfl] at hle
      have hnearest : nearest sum.natAbs 1 ≤ units := nearest_le hunits (by omega)
      rw [if_neg (by omega), decide_eq_true hneg, signed, signed, if_pos rfl, if_pos rfl]
      omega
    · have hnearest : nearest 0 1 = 0 := rfl
      rw [Int.natAbs_zero, hnearest]
      cases zeroSign <;> simpa [signed] using hle
    · have hnearest : signed negative units ≤ nearest sum.natAbs 1 := by
        cases negative with
        | true => rw [signed, if_pos rfl]; omega
        | false =>
            rw [signed, if_neg Bool.false_ne_true] at hle ⊢
            exact Int.ofNat_le.2 (le_nearest hunits (by omega))
      rw [if_neg (by omega), decide_eq_false (by omega)]
      exact hnearest
  · rename_i hbound
    have hpos : 0 < sum := by
      refine Int.not_le.1 fun hnonpos => ?_
      have hle' : sum.natAbs ≤ units := by
        cases negative with
        | true => rw [signed, if_pos rfl] at hle; omega
        | false => rw [signed, if_neg Bool.false_ne_true] at hle; omega
      have hnearest := nearest_le hunits hle'
      exact hbound (Nat.lt_of_le_of_lt hnearest hunits.1)
    rw [if_neg (by omega), decide_eq_false (by omega)]
    rfl

theorem le_add_of_nonneg {x b : Binary64} (hx : x.isFinite = true) (hb : zero ≤ b) : x ≤ x + b := by
  change le zero b = true at hb
  cases x with
  | infinite => simp [isFinite] at hx
  | notANumber => simp [isFinite] at hx
  | finite n u hu =>
      cases b with
      | notANumber => simp [zero, le] at hb
      | infinite m =>
          have hm : m = false := by simpa [zero, le] using hb
          subst hm
          rfl
      | finite m v hv =>
          have hv : 0 ≤ signed m v := of_decide_eq_true hb
          exact le_round hu (by omega)

end SegmentFlow.Binary64
