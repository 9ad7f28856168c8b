import SegmentFlow.Binary64.Basic
/-!
# Decimals in and out

`ofDecimal` reads digits and a power of ten in two roundings: the digits become a number of the
format, which is then multiplied or divided by the format's own power of ten. The second rounding
makes it differ from the nearest number for some long decimals, and readers of the same data rely
on which number comes out, so the two steps are not merged.

`shortest` goes the other way: the fewest digits that lie closer to the number than to any other
number of the format, and of those the nearest, an exact tie going to the even digit.
-/

namespace SegmentFlow.Binary64

/-- Ten to the `k`. -/
def tenPower (k : Nat) : Nat :=
  Nat.pow 10 k

/-! ### From digits -/

/-- The greatest power of ten that the format holds. -/
def greatestTenPower : Nat := 308

/-- Division by ten to the `k`, in steps that the format can hold. -/
def overTenPower (x : Binary64) (k : Nat) : Binary64 :=
  if k ≤ greatestTenPower then x / ofNat (tenPower k)
  else if x = zero then x
  else overTenPower (x / ofNat (tenPower greatestTenPower)) (k - greatestTenPower)
termination_by k
decreasing_by simp only [greatestTenPower] at *; omega

/-- `digits · 10 ^ exponent`, or nothing when that is too large for the format. -/
def ofDecimal (negative : Bool) (digits : Nat) (exponent : Int) : Option Binary64 :=
  let magnitude :=
    match exponent with
    | .ofNat k =>
      if digits = 0 then zero
      else if k ≤ greatestTenPower then ofNat digits * ofNat (tenPower k)
      else infinite false
    | .negSucc k => overTenPower (ofNat digits) (k + 1)
  if magnitude.isFinite then some (if negative then -magnitude else magnitude) else none

/-! ### To digits -/

/-- Whether `10 ^ e` is at most `units`. -/
def tenPowerAtMost (e : Int) (units : Nat) : Bool :=
  match e with
  | .ofNat k => tenPower k <<< 1074 ≤ units
  | .negSucc k => 1 <<< 1074 ≤ units * tenPower (k + 1)

/-- The exponent of the first digit of a positive number of units. The bit length gives it up to
one, and the comparison with the neighbouring powers of ten decides. -/
def leadingExponent (units : Nat) : Int :=
  let guess := ((units.log2 : Int) - 1074) * 30103 / 100000
  if tenPowerAtMost (guess + 1) units then guess + 1
  else if tenPowerAtMost guess units then guess
  else guess - 1

/-- The nearest multiple of `10 ^ e` that reads back as `units`, divided by `10 ^ e`, if the
multiple just below or the one just above `units` does. -/
def onGrid? (units : Nat) (e : Int) : Option Nat :=
  let scale := tenPower (-e).toNat
  let step := tenPower e.toNat <<< 1074
  let value := units * scale
  let low := value / step
  let below := value - low * step
  let above := (low + 1) * step - value
  let gap := 1 <<< (units.log2 - 52)
  let even := units / gap % 2 = 0
  let reach := fun (distance quarters : Nat) =>
    4 * distance < quarters * scale ∨ (4 * distance = quarters * scale ∧ even)
  let lowHit : Bool := reach below (if 1 < gap ∧ units = gap <<< 52 then gap else 2 * gap)
  let highHit : Bool := reach above (2 * gap)
  match lowHit, highHit with
  | true, true =>
    if below < above ∨ (below = above ∧ low % 2 = 0) then some low else some (low + 1)
  | true, false => some low
  | false, true => some (low + 1)
  | false, false => none

/-- Removes the zeros at the end of a number, counting them into the exponent. -/
def dropZeros (digits : Nat) (e : Int) : Nat × Int :=
  if digits ≠ 0 ∧ digits % 10 = 0 then dropZeros (digits / 10) (e + 1) else (digits, e)
termination_by digits
decreasing_by omega

/-- The shortest decimal that reads back as the positive number `units`: its digits as a number
that does not end in zero, and the power of ten that they are multiplied by. Seventeen digits
always suffice. -/
def shortest (units : Nat) : Nat × Int :=
  let first := leadingExponent units
  let exponents := (List.range 17).map fun (n : Nat) => first - n
  match exponents.findSome? fun e => (onGrid? units e).map (·, e) with
  | some (digits, e) => dropZeros digits e
  | none => (0, 0)

end SegmentFlow.Binary64
