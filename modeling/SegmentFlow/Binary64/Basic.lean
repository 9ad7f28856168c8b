/-!
# Binary floating point of 64 bits

A finite number of the format is a whole number of *units*, one unit being 2⁻¹⁰⁷⁴, with at most 53
significant bits. Everything here is therefore exact arithmetic on `Nat` followed by one rounding:
`nearest` rounds a quotient to the format, a half going to the even neighbour, and each operation
is the exact result, rounded.

Comparisons with something that is not a number are all false.
-/

namespace SegmentFlow

/-- The least number of units that is too large for the format: 2¹⁰²⁴ is that many. -/
def unitBound : Nat := 1 <<< 2098

/-- A number of units that the format holds: at most 53 significant bits, below the bound. -/
def Representable (units : Nat) : Prop :=
  units < unitBound ∧ 1 <<< (units.log2 - 52) ∣ units

inductive Binary64 where
  /-- The number ± `units` · 2⁻¹⁰⁷⁴; the two zeros differ in sign. -/
  | finite (negative : Bool) (units : Nat) (representable : Representable units)
  | infinite (negative : Bool)
  | notANumber
  deriving DecidableEq

namespace Binary64

/-! ### Rounding -/

/-- The number with at most 53 significant bits that is nearest to `num / den`; of two equally near
ones, the one whose last significant bit is zero. -/
def nearest (num den : Nat) : Nat :=
  let shift := (num / den).log2 - 52
  let step := den <<< shift
  let low := num / step
  let rest := 2 * (num % step)
  (if rest > step ∨ (rest = step ∧ low % 2 = 1) then low + 1 else low) <<< shift

theorem step_dvd_shiftLeft {q s : Nat} (h : q ≤ 1 <<< 53) :
    1 <<< ((q <<< s).log2 - 52) ∣ q <<< s := by
  simp only [Nat.shiftLeft_eq, Nat.one_mul] at h ⊢
  rcases Nat.eq_zero_or_pos q with rfl | hq
  · simp
  rcases Nat.lt_or_eq_of_le h with hlt | rfl
  · have hpos : q * 2 ^ s ≠ 0 := Nat.ne_of_gt (Nat.mul_pos hq (Nat.two_pow_pos s))
    have hlog : (q * 2 ^ s).log2 < 53 + s := by
      rw [Nat.log2_lt hpos, Nat.pow_add]
      exact Nat.mul_lt_mul_of_pos_right hlt (Nat.two_pow_pos s)
    exact Nat.dvd_trans (Nat.pow_dvd_pow 2 (by omega)) (Nat.dvd_mul_left _ _)
  · rw [← Nat.pow_add, Nat.log2_two_pow]
    exact Nat.pow_dvd_pow 2 (by omega)

theorem step_dvd_nearest (num den : Nat) :
    1 <<< ((nearest num den).log2 - 52) ∣ nearest num den := by
  apply step_dvd_shiftLeft
  have hlow : num / (den <<< ((num / den).log2 - 52)) < 1 <<< 53 := by
    rw [Nat.shiftLeft_eq, Nat.shiftLeft_eq, Nat.one_mul, ← Nat.div_div_eq_div_mul,
      Nat.div_lt_iff_lt_mul (Nat.two_pow_pos _), ← Nat.pow_add]
    exact Nat.lt_of_lt_of_le Nat.lt_log2_self (Nat.pow_le_pow_right (by decide) (by omega))
  split <;> omega

/-- `num / den` units, rounded; what is too large for the format becomes infinite. -/
def round (negative : Bool) (num den : Nat) : Binary64 :=
  if h : nearest num den < unitBound then
    finite negative (nearest num den) ⟨h, step_dvd_nearest num den⟩
  else infinite negative

/-! ### Whole numbers -/

def zero : Binary64 :=
  finite false 0 ⟨by decide, Nat.dvd_zero _⟩

def ofInt (i : Int) : Binary64 :=
  round (decide (i < 0)) (i.natAbs <<< 1074) 1

def ofNat (n : Nat) : Binary64 :=
  round false (n <<< 1074) 1

/-! ### Arithmetic -/

def isFinite : Binary64 → Bool
  | finite .. => true
  | _ => false

def neg : Binary64 → Binary64
  | finite n u h => finite (!n) u h
  | infinite n => infinite (!n)
  | notANumber => notANumber

def abs : Binary64 → Binary64
  | finite _ u h => finite false u h
  | infinite _ => infinite false
  | notANumber => notANumber

/-- The signed number of units of a finite number. -/
def signed (negative : Bool) (units : Nat) : Int :=
  if negative then -units else units

/-- A sum that is exactly zero is negative only if both terms are. -/
def add : Binary64 → Binary64 → Binary64
  | finite n u _, finite m v _ =>
    let sum := signed n u + signed m v
    round (if sum = 0 then n && m else decide (sum < 0)) sum.natAbs 1
  | finite .., infinite m => infinite m
  | infinite n, finite .. => infinite n
  | infinite n, infinite m => if n = m then infinite n else notANumber
  | _, _ => notANumber

def sub (x y : Binary64) : Binary64 :=
  x.add y.neg

def mul : Binary64 → Binary64 → Binary64
  | finite n u _, finite m v _ => round (n != m) (u * v) (1 <<< 1074)
  | finite n u _, infinite m => if u = 0 then notANumber else infinite (n != m)
  | infinite n, finite m v _ => if v = 0 then notANumber else infinite (n != m)
  | infinite n, infinite m => infinite (n != m)
  | _, _ => notANumber

def div : Binary64 → Binary64 → Binary64
  | finite n u _, finite m v _ =>
    if v = 0 then (if u = 0 then notANumber else infinite (n != m))
    else round (n != m) (u <<< 1074) v
  | finite n _ _, infinite m => round (n != m) 0 1
  | infinite n, finite m _ _ => infinite (n != m)
  | _, _ => notANumber

instance : Add Binary64 := ⟨add⟩
instance : Sub Binary64 := ⟨sub⟩
instance : Mul Binary64 := ⟨mul⟩
instance : Div Binary64 := ⟨div⟩
instance : Neg Binary64 := ⟨neg⟩

/-! ### Order -/

/-- The order of the format: false when either side is not a number. -/
def lt : Binary64 → Binary64 → Bool
  | finite n u _, finite m v _ => decide (signed n u < signed m v)
  | finite .., infinite m => !m
  | infinite n, finite .. => n
  | infinite n, infinite m => n && !m
  | _, _ => false

def le : Binary64 → Binary64 → Bool
  | finite n u _, finite m v _ => decide (signed n u ≤ signed m v)
  | finite .., infinite m => !m
  | infinite n, finite .. => n
  | infinite n, infinite m => n || !m
  | _, _ => false

instance : LT Binary64 := ⟨fun x y => x.lt y = true⟩
instance : LE Binary64 := ⟨fun x y => x.le y = true⟩
instance (x y : Binary64) : Decidable (x < y) := inferInstanceAs (Decidable (x.lt y = true))
instance (x y : Binary64) : Decidable (x ≤ y) := inferInstanceAs (Decidable (x.le y = true))

end Binary64

end SegmentFlow
