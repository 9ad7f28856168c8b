import Mathlib.Data.EReal.Inv
import SegmentFlow.Proofs.Binary64.Order
/-!
# The exact value of a number

Comparing with a rounded sum is the same as comparing with the exact one, as far as being beyond it
goes: a number of the format that is at most the exact sum is at most the rounded one. So what a check
on rounded sums lets through can be added up exactly.
-/

namespace SegmentFlow.Binary64

/-- The exact value, if there is one. -/
noncomputable def value? : Binary64 → Option EReal
  | finite n u _ => some ((signed n u : ℝ) / 2 ^ 1074 : ℝ)
  | infinite n => some (if n then ⊥ else ⊤)
  | notANumber => none

/-- A number of the format is not rounded. -/
theorem round_of_representable (negative : Bool) {units : Nat} (hunits : Representable units) :
    round negative units 1 = finite negative units hunits := by
  have hnearest : nearest units 1 = units :=
    Nat.le_antisymm (nearest_le hunits (Nat.le_refl _)) (le_nearest hunits (Nat.le_refl _))
  rw [round, dif_pos (hnearest.symm ▸ hunits.1)]
  simp only [hnearest]

theorem cast_shiftLeft_div (n k : Nat) : ((n <<< k : Nat) : ℝ) / 2 ^ k = n := by
  rw [Nat.shiftLeft_eq, Nat.cast_mul, Nat.cast_pow, Nat.cast_ofNat]
  exact mul_div_cancel_right₀ _ (by positivity)

theorem value?_ofNat {n : Nat} (hn : n ≤ 1 <<< 53) : (ofNat n).value? = some (n : EReal) := by
  have hle : n <<< 1074 ≤ (1 <<< 53) <<< 1074 := by
    rw [Nat.shiftLeft_eq n, Nat.shiftLeft_eq (1 <<< 53)]
    exact Nat.mul_le_mul_right _ hn
  have hbound : n <<< 1074 < unitBound := Nat.lt_of_le_of_lt hle (by decide +kernel)
  have hunits : Representable (n <<< 1074) := ⟨hbound, step_dvd_shiftLeft hn⟩
  rw [ofNat, round_of_representable false hunits, value?, signed, if_neg Bool.false_ne_true,
    Int.cast_natCast, cast_shiftLeft_div]
  rfl

/-- A finite number that is not at most a rounded sum lies beyond the exact one. -/
theorem add_lt_of_not_le_add {x b z : Binary64} (hx : x.isFinite = true) (hz : z.isFinite = true)
    (hlt : ¬ z ≤ x + b) {c : EReal} (hb : b.value? = some c) :
    ∃ p ∈ x.value?, ∃ q ∈ z.value?, p + c < q := by
  cases x with
  | infinite => exact nomatch hx
  | notANumber => exact nomatch hx
  | finite n u hu =>
      cases z with
      | infinite => exact nomatch hz
      | notANumber => exact nomatch hz
      | finite k w hw =>
          refine ⟨_, rfl, _, rfl, ?_⟩
          cases b with
          | notANumber => exact nomatch hb
          | infinite m =>
              cases m with
              | false => exact absurd rfl hlt
              | true =>
                  obtain rfl : ⊥ = c := Option.some.inj hb
                  rw [EReal.add_bot]
                  exact EReal.bot_lt_coe _
          | finite m v hv =>
              obtain rfl := Option.some.inj hb
              have hsum : signed n u + signed m v < signed k w :=
                Int.not_le.1 fun hle => hlt (le_round hw hle)
              have hreal : (signed n u + signed m v : ℝ) < signed k w := by exact_mod_cast hsum
              rw [← EReal.coe_add, EReal.coe_lt_coe_iff, ← add_div]
              exact div_lt_div_of_pos_right hreal (by positivity)

end SegmentFlow.Binary64
