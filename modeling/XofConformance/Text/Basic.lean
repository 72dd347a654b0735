/-!
# Texts

A text is a list of code points. Documents may hold a lone surrogate (written as an escape), so
code points are numbers and not scalar values; `IsScalar` says which of them are scalar values.
An integer is written with all its digits, in a message as anywhere else: the limit of 4300 digits
that an interpreter sets is not modelled.
-/

namespace XofConformance

/-- A code point: a scalar value or a lone surrogate. -/
abbrev CodePoint := Nat

/-- A text is the sequence of its code points. -/
abbrev Text := List CodePoint

namespace Text

/-! ## Code points -/

/-- A code unit that only a pair may hold. -/
def IsSurrogate (c : CodePoint) : Prop := 0xD800 ≤ c ∧ c ≤ 0xDFFF

/-- A code point that stands for a character of its own. -/
def IsScalar (c : CodePoint) : Prop := c < 0x110000 ∧ ¬ IsSurrogate c

instance (c : CodePoint) : Decidable (IsSurrogate c) := inferInstanceAs (Decidable (_ ∧ _))

instance (c : CodePoint) : Decidable (IsScalar c) := inferInstanceAs (Decidable (_ ∧ _))

/-- `c` is one of the digits `0` to `9`. -/
def isDigit (c : CodePoint) : Bool := 0x30 ≤ c && c ≤ 0x39

/-- The value of a digit `0` to `9`. -/
def digitValue (c : CodePoint) : Nat := c - 0x30

/-- The value of a hexadecimal digit in either case. -/
def hexValue? (c : CodePoint) : Option Nat :=
  if 0x30 ≤ c ∧ c ≤ 0x39 then some (c - 0x30)
  else if 0x61 ≤ c ∧ c ≤ 0x66 then some (c - 0x61 + 10)
  else if 0x41 ≤ c ∧ c ≤ 0x46 then some (c - 0x41 + 10)
  else none

/-- The lowercase hexadecimal digit of a value below 16. -/
def hexDigit (n : Nat) : CodePoint := if n < 10 then 0x30 + n else 0x61 + (n - 10)

/-! ## Order -/

/-- The first text comes before the second, code points compared one after the other. -/
def precedes (s t : Text) : Bool := List.lex s t fun c d => decide (c < d)

/-! ## Texts from other values -/

/-- The code points of a string. -/
def ofString (s : String) : Text := s.toList.map Char.toNat

instance : Coe String Text := ⟨ofString⟩

/-- A natural number in decimal. -/
def ofNat (n : Nat) : Text := (Nat.toDigits 10 n).map Char.toNat

/-- An integer in decimal, with a sign only if it is negative. -/
def ofInt : Int → Text
  | .ofNat n => ofNat n
  | .negSucc n => 0x2D :: ofNat (n + 1)

/-- The last `width` lowercase hexadecimal digits of `n`, high digit first. -/
def ofHex : Nat → Nat → Text
  | 0, _ => []
  | width + 1, n => ofHex width (n / 16) ++ [hexDigit (n % 16)]

/-- The value of a run of digits read in `base`. -/
def digitsValue (base : Nat) (value : CodePoint → Nat) (digits : Text) : Nat :=
  digits.foldl (fun n c => n * base + value c) 0

/-- The value of a run of decimal digits. -/
def decimalValue : Text → Nat := digitsValue 10 digitValue

/-! ## Cutting and joining -/

/-- The parts one after the other. -/
def concat (parts : List Text) : Text := parts.flatten

/-- The parts with `sep` between them. -/
def join (sep : Text) (parts : List Text) : Text := sep.intercalate parts

/-- Without the longest run of `p` at the end. -/
def dropEndWhile (p : CodePoint → Bool) (t : Text) : Text := (t.reverse.dropWhile p).reverse

/-- Without the longest runs of `p` at either end. -/
def trim (p : CodePoint → Bool) (t : Text) : Text := dropEndWhile p (t.dropWhile p)

/-- The text up to the first `c`, or all of it. -/
def before (c : CodePoint) (t : Text) : Text := t.takeWhile (· != c)

/-- The parts between the separators `c`; one more part than separators. -/
def splitOn (c : CodePoint) : Text → List Text
  | [] => [[]]
  | d :: rest =>
    if d = c then [] :: splitOn c rest
    else match splitOn c rest with
      | [] => [[d]]
      | part :: parts => (d :: part) :: parts

/-- Carriage returns, alone or before a line feed, become line feeds. -/
def unifyNewlines : Text → Text
  | [] => []
  | 0x0D :: 0x0A :: rest => 0x0A :: unifyNewlines rest
  | c :: rest => (if c = 0x0D then 0x0A else c) :: unifyNewlines rest

/-- The line and column of a position, both counted from one. -/
def lineColumn (t : Text) (position : Nat) : Nat × Nat :=
  let head := t.take position
  (head.count 0x0A + 1, (head.reverse.takeWhile (· != 0x0A)).length + 1)

end Text

end XofConformance
