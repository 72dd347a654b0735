import XofConformance.Json.Basic

/-!
# Equality of values

Numbers are equal when their exact values are, a truth value counts as 0 or 1, arrays are equal
item by item, and objects have equal values under the same keys in any order. A NaN is not equal
to itself when it stands alone, but it is the same item inside an array or an object.
-/

namespace XofConformance.Json

/-- Equality of numbers; `inside` a value a NaN is the same as itself. -/
def sameNumber (inside : Bool) (a b : Number) : Bool :=
  if inside then a.worth == b.worth else a.equal b

mutual

/-- Equality of two values, alone or inside others. -/
def same (inside : Bool) (a b : Json) : Bool :=
  match a with
  | .null => match b with
    | .null => true
    | _ => false
  | .bool x => match b.numeric? with
    | some n => sameNumber inside (.int (if x then 1 else 0)) n
    | none => false
  | .number m => match b.numeric? with
    | some n => sameNumber inside m n
    | none => false
  | .text s => match b with
    | .text t => s == t
    | _ => false
  | .array xs => match b with
    | .array ys => sameItems xs ys
    | _ => false
  | .object xs => match b with
    | .object ys => xs.length == ys.length && sameFields xs ys
    | _ => false

/-- Equality of arrays item by item. -/
def sameItems : List Json → List Json → Bool
  | [], [] => true
  | x :: xs, y :: ys => same true x y && sameItems xs ys
  | _, _ => false

/-- Every field is among the other fields with an equal value. -/
def sameFields : List (Text × Json) → List (Text × Json) → Bool
  | [], _ => true
  | (k, x) :: xs, ys =>
    (match lookup k ys with
      | some y => same true x y
      | none => false) && sameFields xs ys

end

/-- Equality of two values that stand alone. -/
def equal (a b : Json) : Bool := same false a b

/-! ## Keys -/

/-- The value may be a key: it holds no other values. -/
def isKey : Json → Bool
  | .array _ | .object _ => false
  | _ => true

/-- Equality of two keys; a NaN is the same key as itself. -/
def sameKey (a b : Json) : Bool := same true a b

end XofConformance.Json
