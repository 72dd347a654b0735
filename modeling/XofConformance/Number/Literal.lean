import XofConformance.Number.Basic
import XofConformance.Text.Blank
import XofConformance.Text.Digit
import XofConformance.Text.LowerCase

/-!
# Numbers from settings

How a setting spells a number: white space around it, a sign, digits of any script, and single
low lines between digits. An integer is nothing but digits; a binary64 value may have a point and
an exponent, or be one of the words for an infinity or a NaN. An integer may have any number of
digits: the limit of 4300 digits that an interpreter sets is not modelled.
-/

namespace XofConformance.Number

/-! ## Parts -/

/-- A sign that may stand before digits: whether it is a minus, and the text after it. -/
def readSign : Text → Bool × Text
  | 0x2D :: rest => (true, rest)
  | 0x2B :: rest => (false, rest)
  | t => (false, t)

/-- The power of ten after an `e`, if there is one. -/
def readExponent? : Text → Option (Int × Text)
  | c :: rest =>
    if c = 0x65 ∨ c = 0x45 then
      let (negative, rest) := readSign rest
      let digits := rest.takeWhile Text.isDigit
      if digits.isEmpty then none
      else
        let n : Int := Text.decimalValue digits
        some (if negative then -n else n, rest.dropWhile Text.isDigit)
    else none
  | [] => none

/-- `c` may stand around a number: the four separators of information may not. -/
def isAround (c : CodePoint) : Bool := Text.isBlank c && !(0x1C ≤ c && c ≤ 0x1F)

/-- A digit of any script as one of the digits `0` to `9`. -/
def plainDigit (c : CodePoint) : CodePoint :=
  match Text.scriptDigit? c with
  | some n => 0x30 + n
  | none => c

/-- A text without its low lines, each of which has to stand between two digits; `behind` says
whether a digit comes before the text. -/
def ungroup? (behind : Bool) : Text → Option Text
  | [] => some []
  | [c] => if c = 0x5F then none else some [c]
  | c :: d :: rest =>
    if c = 0x5F then
      if behind && Text.isDigit d then ungroup? false (d :: rest) else none
    else (ungroup? (Text.isDigit c) (d :: rest)).map (c :: ·)

/-- A spelled number without what is around it and between its digits. -/
def bare? (t : Text) : Option Text := ungroup? false ((Text.trim isAround t).map plainDigit)

/-! ## Integers -/

/-- The integer that a text spells. -/
def readInt? (t : Text) : Option Int := do
  let (negative, digits) := readSign (← bare? t)
  if digits.isEmpty || !digits.all Text.isDigit then none
  else
    let n : Int := Text.decimalValue digits
    some (if negative then -n else n)

/-! ## Binary64 values -/

/-- The value that digits with a point and an exponent spell. -/
def readDecimal? (negative : Bool) (t : Text) : Option Binary64 :=
  let whole := t.takeWhile Text.isDigit
  let rest := t.dropWhile Text.isDigit
  let (fraction, rest) := match rest with
    | 0x2E :: rest => (rest.takeWhile Text.isDigit, rest.dropWhile Text.isDigit)
    | _ => ([], rest)
  let (exponent, rest) := (readExponent? rest).getD (0, rest)
  let digits := whole ++ fraction
  if digits.isEmpty || !rest.isEmpty then none
  else some (Binary64.ofDecimal negative (Text.decimalValue digits) (exponent - fraction.length))

/-- The value that a word spells, in either case. -/
def readWord? (negative : Bool) (t : Text) : Option Binary64 :=
  let word := t.map Text.lowerSimple
  if word = Text.ofString "inf" ∨ word = Text.ofString "infinity" then some (.infinite negative)
  else if word = Text.ofString "nan" then some .nan
  else none

/-- The binary64 value that a text spells. -/
def readFloat? (t : Text) : Option Binary64 := do
  let (negative, body) := readSign (← bare? t)
  readWord? negative body <|> readDecimal? negative body

end XofConformance.Number
