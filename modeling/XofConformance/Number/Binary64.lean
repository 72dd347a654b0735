import XofConformance.Text.Basic

/-!
# Binary64 values

A finite value is kept as the exact dyadic rational it stands for; a negative zero is told apart
from zero. Rounding to nearest, ties to even, happens once, when a decimal or an integer is read.

    ofRatio negative num den = the binary64 value nearest to ± num / den
-/

namespace XofConformance

/-- A binary64 value. -/
inductive Binary64
  | nan
  | infinite (negative : Bool)
  | negativeZero
  | finite (value : Dyadic)
  deriving DecidableEq

namespace Binary64

/-! ## Rounding -/

/-- The significant bits of a normal value. -/
def precision : Nat := 53

/-- The exponent of the least positive value. -/
def minExponent : Int := -1074

/-- The exponent from which on values are infinite. -/
def overflowExponent : Nat := 1024

/-- `num / den` rounded to an integer, ties to even. -/
def roundDiv (num den : Nat) : Nat :=
  let q := num / den
  let r := num % den
  if 2 * r > den ∨ (2 * r = den ∧ q % 2 = 1) then q + 1 else q

/-- The exponent of the last bit of `num / den` at full precision. -/
def lastBit (num den : Nat) : Int :=
  let e : Int := (num.log2 : Int) - den.log2 - precision + 1
  let short := num * Nat.pow 2 (-e).toNat < den * Nat.pow 2 e.toNat * Nat.pow 2 (precision - 1)
  max minExponent (if short then e - 1 else e)

/-- The value nearest to a positive or negative `num / den`. -/
def ofRatio (negative : Bool) (num den : Nat) : Binary64 :=
  let e := lastBit num den
  let m := roundDiv (num * Nat.pow 2 (-e).toNat) (den * Nat.pow 2 e.toNat)
  if m = 0 then (if negative then .negativeZero else .finite 0)
  else if Nat.pow 2 overflowExponent ≤ m * Nat.pow 2 e.toNat then .infinite negative
  else .finite (Dyadic.ofIntWithPrec (if negative then -(m : Int) else m) (-e))

/-- The value nearest to ± digits · 10 ^ exponent. Exponents far outside the range are settled
without computing the power. -/
def ofDecimal (negative : Bool) (digits : Nat) (exponent : Int) : Binary64 :=
  let size := (Nat.toDigits 10 digits).length + exponent
  if digits = 0 ∨ size < -330 then (if negative then .negativeZero else .finite 0)
  else if 310 < size then .infinite negative
  else ofRatio negative (digits * Nat.pow 10 exponent.toNat) (Nat.pow 10 (-exponent).toNat)

/-- The value nearest to an integer, if that is finite. -/
def ofInt? (n : Int) : Option Binary64 :=
  match ofRatio (n < 0) n.natAbs 1 with
  | .infinite _ => none
  | x => some x

/-! ## Parts -/

/-- The integer that a dyadic value is, if it is one. -/
def integer? : Dyadic → Option Int
  | .zero => some 0
  | .ofOdd n k _ => if k ≤ 0 then some (n * Nat.pow 2 (-k).toNat) else none

/-- A nonzero dyadic value as its sign, and the numerator and denominator of its size. -/
def ratio : Dyadic → Bool × Nat × Nat
  | .zero => (false, 0, 1)
  | .ofOdd n k _ => (n < 0, n.natAbs * Nat.pow 2 (-k).toNat, Nat.pow 2 k.toNat)

end Binary64

end XofConformance
