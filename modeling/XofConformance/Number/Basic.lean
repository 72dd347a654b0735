import XofConformance.Number.Shortest

/-!
# Numbers

A document's number is an integer of any size or a binary64 value. Two numbers are compared by
their exact values, so `1` and `1.0` are the same and a large integer never equals a rounded one.
-/

namespace XofConformance

/-- A number as a document writes it. -/
inductive Number
  | int (n : Int)
  | float (x : Binary64)
  deriving DecidableEq

namespace Number

instance : Coe Int Number := ⟨.int⟩

/-! ## Exact values -/

/-- What a number is worth. -/
inductive Worth
  | nan
  | infinite (negative : Bool)
  | finite (value : Dyadic)
  deriving DecidableEq

/-- The exact value of a number. -/
def worth : Number → Worth
  | .int n => .finite (Dyadic.ofInt n)
  | .float .nan => .nan
  | .float (.infinite negative) => .infinite negative
  | .float .negativeZero => .finite 0
  | .float (.finite d) => .finite d

/-- Equality of exact values; a NaN equals nothing. -/
def equal (a b : Number) : Bool := a.worth == b.worth && a.worth != .nan

/-- The order of exact values; a NaN stands outside it. -/
def Worth.lt : Worth → Worth → Bool
  | .nan, _ | _, .nan => false
  | .infinite true, .infinite true => false
  | .infinite true, _ => true
  | _, .infinite true => false
  | .infinite false, _ => false
  | _, .infinite false => true
  | .finite a, .finite b => decide (a < b)

/-- `a` is less than `b`. -/
def lt (a b : Number) : Bool := a.worth.lt b.worth

/-- `a` is at most `b`. -/
def le (a b : Number) : Bool := lt a b || equal a b

/-- The integer that a number is worth, if it is one. -/
def integer? : Number → Option Int
  | .int n => some n
  | .float .negativeZero => some 0
  | .float (.finite d) => Binary64.integer? d
  | .float _ => none

/-- The number is worth an integer. -/
def isIntegral (n : Number) : Bool := n.integer?.isSome

/-- The number is worth zero. -/
def isZero (n : Number) : Bool := n.equal (.int 0)

/-! ## Bit counts -/

/-- The number is a multiple of eight. -/
def isWholeBytes (n : Number) : Bool :=
  match n.integer? with
  | some k => k % 8 == 0
  | none => false

/-- The number of whole bytes in a number of bits, rounded down; of the same form as the number. -/
def bytes : Number → Number
  | .int n => .int (n.fdiv 8)
  | .float .negativeZero => .float .negativeZero
  | .float (.finite d) => .float (.finite (Dyadic.ofInt (d.toRat / 8).floor))
  | .float _ => .float .nan

/-! ## Text -/

/-- The text of a number. -/
def text : Number → Text
  | .int n => Text.ofInt n
  | .float x => x.text

end Number

end XofConformance
