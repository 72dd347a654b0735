import XofConformance.Json.Basic
import XofConformance.Text.Quoted

/-!
# Values in messages

A message shows a value in its own spelling: `None`, `True` and `False`, texts between quotes,
lists and mappings between brackets. A text that stands alone is shown without quotes.
-/

namespace XofConformance.Json

mutual

/-- The value with its texts between quotes. -/
def quoted : Json → Text
  | .null => "None"
  | .bool b => if b then "True" else "False"
  | .number n => n.text
  | .text t => t.quoted
  | .array items => Text.concat ["[", Text.join ", " (quotedItems items), "]"]
  | .object fields => Text.concat ["\x7b", Text.join ", " (quotedFields fields), "\x7d"]

/-- The items of an array, each quoted. -/
def quotedItems : List Json → List Text
  | [] => []
  | v :: rest => quoted v :: quotedItems rest

/-- The fields of an object, each quoted. -/
def quotedFields : List (Text × Json) → List Text
  | [] => []
  | (k, v) :: rest => Text.concat [k.quoted, ": ", quoted v] :: quotedFields rest

end

/-- The value as it is shown alone. -/
def shown : Json → Text
  | .text t => t
  | v => v.quoted

end XofConformance.Json
