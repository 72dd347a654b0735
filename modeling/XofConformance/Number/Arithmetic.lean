import XofConformance.Number.Basic

/-!
# Sums and products of binary64 values

The exact sum or product of two finite values, rounded once.
-/

namespace XofConformance.Binary64

/-- The value nearest to a dyadic rational. -/
def round (d : Dyadic) : Binary64 :=
  let (negative, num, den) := ratio d
  if num = 0 then .finite 0 else ofRatio negative num den

/-- The value has a minus sign. -/
def isNegative : Binary64 → Bool
  | .nan => false
  | .infinite negative => negative
  | .negativeZero => true
  | .finite d => d < 0

/-- The dyadic rational that a finite value is worth. -/
def dyadic? : Binary64 → Option Dyadic
  | .negativeZero => some 0
  | .finite d => some d
  | _ => none

/-- The value with its sign changed. -/
def negate : Binary64 → Binary64
  | .nan => .nan
  | .infinite negative => .infinite !negative
  | .negativeZero => .finite 0
  | .finite d => if d = 0 then .negativeZero else .finite (-d)

/-- The sum of two values. -/
def add (x y : Binary64) : Binary64 :=
  match x, y with
  | .nan, _ | _, .nan => .nan
  | .infinite a, .infinite b => if a = b then .infinite a else .nan
  | .infinite a, _ | _, .infinite a => .infinite a
  | .negativeZero, .negativeZero => .negativeZero
  | x, y => round ((x.dyadic?.getD 0) + (y.dyadic?.getD 0))

/-- The product of two values; of a zero and an infinity, a NaN. -/
def mul (x y : Binary64) : Binary64 :=
  let negative := x.isNegative != y.isNegative
  match x, y with
  | .nan, _ | _, .nan => .nan
  | .infinite _, y | y, .infinite _ =>
    if y.dyadic? = some 0 then .nan else .infinite negative
  | x, y =>
    let d := (x.dyadic?.getD 0) * (y.dyadic?.getD 0)
    if d = 0 then (if negative then .negativeZero else .finite 0)
    else match round d with
      | .finite .zero => if negative then .negativeZero else .finite 0
      | r => r

end XofConformance.Binary64
