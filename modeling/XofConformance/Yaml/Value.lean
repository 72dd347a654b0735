import XofConformance.Json.Basic
import XofConformance.Yaml.Scalar

/-!
# Values of YAML documents

A mapping has one entry to a key: writing a key again replaces the value and keeps the place and
the first spelling of the key.
-/

namespace XofConformance.Yaml

/-- A value of a document. -/
inductive Value
  | scalar (s : Scalar)
  | list (items : List Value)
  | mapping (entries : List (Scalar × Value))
  | set (members : List Scalar)
  deriving Inhabited

namespace Value

/-- The entries with the value under `key` set to `v`. -/
def insert (key : Scalar) (v : Value) : List (Scalar × Value) → List (Scalar × Value)
  | [] => [(key, v)]
  | (k, w) :: rest => if k.same key then (k, v) :: rest else (k, w) :: insert key v rest

/-- The entries that a sequence of keys and values leaves. -/
def entriesOf (pairs : List (Scalar × Value)) : List (Scalar × Value) :=
  pairs.foldl (fun entries p => insert p.1 p.2 entries) []

/-- The value under a key. -/
def lookup (key : Scalar) : List (Scalar × Value) → Option Value
  | [] => none
  | (k, v) :: rest => if k.same key then some v else lookup key rest

mutual

/-- A JSON value as a value of a document. -/
def ofJson : Json → Value
  | .null => .scalar .null
  | .bool b => .scalar (.bool b)
  | .number n => .scalar (.number n)
  | .text t => .scalar (.text t)
  | .array items => .list (ofItems items)
  | .object fields => .mapping (ofFields fields)

/-- The items of an array. -/
def ofItems : List Json → List Value
  | [] => []
  | v :: rest => ofJson v :: ofItems rest

/-- The fields of an object as the entries of a mapping. -/
def ofFields : List (Text × Json) → List (Scalar × Value)
  | [] => []
  | (k, v) :: rest => (.text k, ofJson v) :: ofFields rest

end

end Value

end XofConformance.Yaml
