import XofConformance.Number.Basic

/-!
# JSON values

An object is the list of its fields in document order, one field to a key: writing a key again
replaces the value and keeps the place.

    lookup key (insert key v fields) = some v                            (lookup_insert)
-/

namespace XofConformance

/-- A JSON value. -/
inductive Json
  | null
  | bool (b : Bool)
  | number (n : Number)
  | text (t : Text)
  | array (items : List Json)
  | object (fields : List (Text × Json))
  deriving Inhabited

namespace Json

instance : Coe Number Json := ⟨.number⟩

/-- An integer as a JSON value. -/
def int (n : Int) : Json := .number (.int n)

/-! ## Fields -/

/-- The value under a key. -/
def lookup (key : Text) : List (Text × Json) → Option Json
  | [] => none
  | (k, v) :: rest => if k = key then some v else lookup key rest

/-- The fields with the value under `key` set to `v`. -/
def insert (key : Text) (v : Json) : List (Text × Json) → List (Text × Json)
  | [] => [(key, v)]
  | (k, w) :: rest => if k = key then (k, v) :: rest else (k, w) :: insert key v rest

/-- The fields that a sequence of keys and values leaves. -/
def fieldsOf (pairs : List (Text × Json)) : List (Text × Json) :=
  pairs.foldl (fun fields p => insert p.1 p.2 fields) []

/-- The value of a field of an object. -/
def field? (key : Text) : Json → Option Json
  | .object fields => lookup key fields
  | _ => none

/-- The value of a field of an object, null if there is none. -/
def field (key : Text) (v : Json) : Json := (v.field? key).getD .null

/-- An optional value as a JSON value. -/
def ofOption {α : Type} (f : α → Json) : Option α → Json
  | some a => f a
  | none => .null

/-! ## Kinds -/

/-- The number that a value counts as: a truth value counts as 0 or 1. -/
def numeric? : Json → Option Number
  | .bool b => some (.int (if b then 1 else 0))
  | .number n => some n
  | _ => none

/-- The text that a value is. -/
def text? : Json → Option Text
  | .text t => some t
  | _ => none

/-- The number that a value is. -/
def number? : Json → Option Number
  | .number n => some n
  | _ => none

/-- The truth value that a value is. -/
def bool? : Json → Option Bool
  | .bool b => some b
  | _ => none

/-- The items of an array. -/
def items? : Json → Option (List Json)
  | .array items => some items
  | _ => none

/-- The fields of an object. -/
def fields? : Json → Option (List (Text × Json))
  | .object fields => some fields
  | _ => none

/-- The value is empty, zero, false or null. -/
def isEmpty : Json → Bool
  | .null => true
  | .bool b => !b
  | .number n => n.isZero
  | .text t => t.isEmpty
  | .array items => items.isEmpty
  | .object fields => fields.isEmpty

/-! ## Lemmas -/

theorem lookup_insert (key : Text) (v : Json) (fields : List (Text × Json)) :
    lookup key (insert key v fields) = some v := by
  induction fields with
  | nil => simp [insert, lookup]
  | cons p rest ih =>
    obtain ⟨k, w⟩ := p
    by_cases h : k = key <;> simp [insert, lookup, h, ih]

theorem lookup_insert_of_ne {key other : Text} (h : other ≠ key) (v : Json)
    (fields : List (Text × Json)) : lookup other (insert key v fields) = lookup other fields := by
  induction fields with
  | nil => simp [insert, lookup, Ne.symm h]
  | cons p rest ih =>
    obtain ⟨k, w⟩ := p
    by_cases hk : k = key
    · simp [insert, lookup, hk, Ne.symm h]
    · by_cases ho : k = other <;> simp [insert, lookup, hk, ho, h, ih]

end Json

end XofConformance
