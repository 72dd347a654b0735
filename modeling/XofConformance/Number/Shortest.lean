import XofConformance.Number.Binary64

/-!
# Shortest decimal text of a binary64 value

Of all decimals that read back as the value, the ones with the fewest digits are taken, and of
these the nearest. If some decimal with `n` digits reads back, then one of the two neighbours of
the value on the grid of `n` digits does, so only these are tried.
-/

namespace XofConformance.Binary64

/-- The positive number digits · 10 ^ exponent. -/
structure Decimal where
  digits : Nat
  exponent : Int
  deriving DecidableEq

/-! ## Digits -/

/-- `10 ^ e` as a numerator and a denominator. -/
def powerOfTen (e : Int) : Nat × Nat := (Nat.pow 10 e.toNat, Nat.pow 10 (-e).toNat)

/-- The exponent `p` with `10 ^ p ≤ num / den < 10 ^ (p + 1)`, from an estimate by bits. -/
def decimalExponent (num den : Nat) : Int :=
  let estimate : Int := ((num.log2 : Int) - den.log2) * 30103 / 100000
  ([estimate + 1, estimate, estimate - 1].find? fun p =>
    let (up, down) := powerOfTen p
    decide (up * den ≤ num * down)).getD (estimate - 2)

/-- The neighbours of `num / den` on the grid `10 ^ exponent`, the nearer one first. -/
def neighbours (num den : Nat) (exponent : Int) : List Decimal :=
  let (up, down) := powerOfTen exponent
  let unit := den * up
  let q := num * down / unit
  let r := num * down % unit
  let low : Decimal := { digits := q, exponent }
  let high : Decimal := { digits := q + 1, exponent }
  if r = 0 then [low] else if 2 * r ≤ unit then [low, high] else [high, low]

/-- The shortest decimal of `num / den`, trying grids of `n`, `n + 1`, … digits. -/
def shortestFrom (num den : Nat) (value : Binary64) (p : Int) : Nat → Nat → Decimal
  | 0, n => { digits := num / den, exponent := n }
  | fuel + 1, n =>
    match (neighbours num den (p - n + 1)).find? fun d =>
        ofDecimal false d.digits d.exponent == value with
    | some d => d
    | none => shortestFrom num den value p fuel (n + 1)

/-- The shortest decimal of a positive value `num / den`; 17 digits always read back. -/
def shortest (num den : Nat) : Decimal :=
  shortestFrom num den (ofRatio false num den) (decimalExponent num den) 17 1

/-! ## Layout -/

/-- How the digits of a number are set: which exponents are written positionally. -/
structure Layout where
  leastPositional : Int
  leastScientific : Int

/-- Documents write numbers from 10⁻⁴ up to below 10¹⁶ positionally. -/
def documentLayout : Layout := { leastPositional := -4, leastScientific := 16 }

/-- Digits with the point after the first `point` of them, zeros filled in on either side and at
least one digit on each side of the point. -/
def positional (digits : Text) (point : Int) : Text :=
  if point ≤ 0 then Text.concat ["0.", List.replicate (-point).toNat 0x30, digits]
  else if digits.length ≤ point.toNat then
    Text.concat [digits, List.replicate (point.toNat - digits.length) 0x30, ".0"]
  else Text.concat [digits.take point.toNat, ".", digits.drop point.toNat]

/-- One digit, the others after the point, and an exponent of at least two digits. -/
def scientific (digits : Text) (exponent : Int) : Text :=
  let size := Text.ofNat exponent.natAbs
  Text.concat [digits.take 1, if digits.length ≤ 1 then [] else 0x2E :: digits.drop 1,
    if exponent < 0 then "e-" else "e+", if size.length < 2 then 0x30 :: size else size]

/-- The text of a positive decimal. -/
def Decimal.text (layout : Layout) (d : Decimal) : Text :=
  let all := Text.ofNat d.digits
  let digits := match Text.dropEndWhile (· == 0x30) all with
    | [] => Text.ofString "0"
    | ds => ds
  let exponent := d.exponent + all.length - 1
  if layout.leastPositional ≤ exponent ∧ exponent < layout.leastScientific then
    positional digits (exponent + 1)
  else scientific digits exponent

/-- The text of a value. -/
def text : Binary64 → Text
  | .nan => "nan"
  | .infinite negative => if negative then "-inf" else "inf"
  | .negativeZero => "-0.0"
  | .finite .zero => "0.0"
  | .finite d =>
    let (negative, num, den) := ratio d
    Text.concat [if negative then "-" else "", (shortest num den).text documentLayout]

end XofConformance.Binary64
