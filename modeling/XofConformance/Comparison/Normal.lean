import XofConformance.Json.Display
import XofConformance.Json.Equality
import XofConformance.Text.LowerCase

/-!
# Equality up to the case of digests

Digests are compared without regard to case: the value under every key `md`, at any depth, is
taken as its text in lower case. All other values are compared as they are.
-/

namespace XofConformance.Comparison

/-- The key of a digest. -/
def digestKey : Text := "md"

mutual

/-- The value with its digests in lower case. -/
def normal : Json → Json
  | .array items => .array (normalItems items)
  | .object fields => .object (normalFields fields)
  | v => v

/-- The items with their digests in lower case. -/
def normalItems : List Json → List Json
  | [] => []
  | v :: rest => normal v :: normalItems rest

/-- The fields with their digests in lower case. -/
def normalFields : List (Text × Json) → List (Text × Json)
  | [] => []
  | (k, v) :: rest =>
    (k, if k = digestKey then .text (Text.lower v.shown) else normal v) :: normalFields rest

end

/-- Equality up to the case of digests. -/
def deepEqual (a b : Json) : Bool := Json.equal (normal a) (normal b)

end XofConformance.Comparison
