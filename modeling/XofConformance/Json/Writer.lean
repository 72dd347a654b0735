import XofConformance.Json.Basic

/-!
# Writing JSON

The written form is ASCII: everything outside the printable ASCII range is escaped by code units.
A `Style` says what stands between the parts; reports sort the keys first.
-/

namespace XofConformance.Json

/-! ## Strings -/

/-- An escape by code unit. -/
def unitEscape (u : Nat) : Text := "\\u" ++ Text.ofHex 4 u

/-- One code point inside a string. -/
def escapeChar (c : CodePoint) : Text :=
  if c = 0x22 ∨ c = 0x5C then [0x5C, c]
  else if c = 0x08 then "\\b"
  else if c = 0x09 then "\\t"
  else if c = 0x0A then "\\n"
  else if c = 0x0C then "\\f"
  else if c = 0x0D then "\\r"
  else if 0x20 ≤ c ∧ c ≤ 0x7E then [c]
  else if c < 0x10000 then unitEscape c
  else unitEscape (0xD800 + (c - 0x10000) / 0x400) ++ unitEscape (0xDC00 + (c - 0x10000) % 0x400)

/-- A text as a JSON string. -/
def writeText (t : Text) : Text := 0x22 :: t.flatMap escapeChar ++ [0x22]

/-- A number as JSON, with words for the values that have no digits. -/
def writeNumber : Number → Text
  | .float .nan => "NaN"
  | .float (.infinite negative) => if negative then "-Infinity" else "Infinity"
  | n => n.text

/-! ## Values -/

/-- What stands between the parts of a value. -/
structure Style where
  /-- Between two items, after the comma. -/
  itemGap : Text
  /-- Between a key and its value, after the colon. -/
  fieldGap : Text
  /-- Each item on a line of its own, this much further in. -/
  indent : Option Nat

/-- Nothing between the parts: one line, as short as possible. -/
def compact : Style := { itemGap := "", fieldGap := "", indent := none }

/-- One line with a space after commas and colons. -/
def spaced : Style := { itemGap := " ", fieldGap := " ", indent := none }

/-- A line for each item, two columns in. -/
def indented : Style := { itemGap := "", fieldGap := " ", indent := some 2 }

/-- The break before an item at a depth. -/
def Style.lineBreak (style : Style) (depth : Nat) : Text :=
  match style.indent with
  | none => []
  | some n => 0x0A :: List.replicate (n * depth) 0x20

/-- The written items between brackets. -/
def Style.enclose (style : Style) (depth : Nat) (opening closing : CodePoint) (items : List Text) :
    Text :=
  if items.isEmpty then [opening, closing]
  else
    Text.concat [[opening], style.lineBreak (depth + 1),
      Text.join (Text.concat [",", style.itemGap, style.lineBreak (depth + 1)]) items,
      style.lineBreak depth, [closing]]

mutual

/-- A value at a depth. -/
def writeAt (style : Style) (depth : Nat) : Json → Text
  | .null => "null"
  | .bool b => if b then "true" else "false"
  | .number n => writeNumber n
  | .text t => writeText t
  | .array items => style.enclose depth 0x5B 0x5D (writeItems style (depth + 1) items)
  | .object fields => style.enclose depth 0x7B 0x7D (writeFields style (depth + 1) fields)

/-- The items of an array, each written. -/
def writeItems (style : Style) (depth : Nat) : List Json → List Text
  | [] => []
  | v :: rest => writeAt style depth v :: writeItems style depth rest

/-- The fields of an object, each written. -/
def writeFields (style : Style) (depth : Nat) : List (Text × Json) → List Text
  | [] => []
  | (k, v) :: rest =>
    Text.concat [writeText k, ":", style.fieldGap, writeAt style depth v]
      :: writeFields style depth rest

end

/-- A value in a style. -/
def write (style : Style) (v : Json) : Text := writeAt style 0 v

/-! ## Key order -/

mutual

/-- The value with the fields of every object in the order of their keys. -/
def sortKeys : Json → Json
  | .array items => .array (sortKeysItems items)
  | .object fields => .object ((sortKeysFields fields).mergeSort fun a b => !Text.precedes b.1 a.1)
  | v => v

/-- The items with their keys sorted. -/
def sortKeysItems : List Json → List Json
  | [] => []
  | v :: rest => sortKeys v :: sortKeysItems rest

/-- The fields with the keys inside their values sorted. -/
def sortKeysFields : List (Text × Json) → List (Text × Json)
  | [] => []
  | (k, v) :: rest => (k, sortKeys v) :: sortKeysFields rest

end

/-- The text of a written file: sorted keys, a line for each item, a line feed at the end. -/
def fileText (v : Json) : Text := write indented (sortKeys v) ++ [0x0A]

end XofConformance.Json
