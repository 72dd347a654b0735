import XofConformance.Yaml.Timestamp

/-!
# Kinds of nodes

The kind of a node is given by its tag, or for a plain scalar by how it is spelled: as one of the
words for a truth value or for nothing, as a number, or as a point in time.
-/

namespace XofConformance.Yaml

/-- The kinds that have values, and the two that matter only as keys. -/
inductive Kind
  | null
  | bool
  | int
  | float
  | text
  | binary
  | timestamp
  | sequence
  | mapping
  | set
  | orderedMap
  | pairs
  | merge
  | value
  deriving DecidableEq

namespace Kind

/-! ## Tags -/

/-- What the tags of the standard kinds begin with. -/
def standardTags : String := "tag:yaml.org,2002:"

/-- The kinds by the rest of their tags. -/
def names : List (String × Kind) :=
  [("null", .null), ("bool", .bool), ("int", .int), ("float", .float), ("str", .text),
    ("binary", .binary), ("timestamp", .timestamp), ("seq", .sequence), ("map", .mapping),
    ("set", .set), ("omap", .orderedMap), ("pairs", .pairs), ("merge", .merge), ("value", .value)]

/-- The kind that a tag names. -/
def ofTag? (tag : Text) : Option Kind :=
  names.findSome? fun p =>
    if tag = Text.concat [standardTags, p.1] then some p.2 else none

/-! ## Spellings -/

/-- The words for truth values. -/
def truthWords : List String :=
  ["yes", "Yes", "YES", "no", "No", "NO", "true", "True", "TRUE", "false", "False", "FALSE",
    "on", "On", "ON", "off", "Off", "OFF"]

/-- The words for nothing. -/
def nullWords : List String := ["", "~", "null", "Null", "NULL"]

/-- `t` is one of the words. -/
def isWord (words : List String) (t : Text) : Bool := words.any fun w => t == Text.ofString w

/-- A text without a sign. -/
def unsigned : Text → Text
  | c :: rest => if c = 0x2B ∨ c = 0x2D then rest else c :: rest
  | [] => []

/-- `c` is a digit or a low line. -/
def isSpacedDigit (c : CodePoint) : Bool := Text.isDigit c || c == 0x5F

/-- A digit and then digits and low lines. -/
def isSpacedNumber : Text → Bool
  | c :: rest => Text.isDigit c && rest.all isSpacedDigit
  | [] => false

/-- A number below sixty. -/
def isSixtieth (t : Text) : Bool :=
  match t with
  | [c] => Text.isDigit c
  | [c, d] => 0x30 ≤ c && c ≤ 0x35 && Text.isDigit d
  | _ => false

/-- One or more digits and low lines of a base after a mark. -/
def isBased (mark : String) (isBaseDigit : CodePoint → Bool) (t : Text) : Bool :=
  let lead := Text.ofString mark
  let digits := t.drop lead.length
  t.take lead.length == lead && !digits.isEmpty && digits.all fun c => isBaseDigit c || c == 0x5F

/-- An integer: binary, octal, decimal, hexadecimal, or in steps of sixty. -/
def isInt (t : Text) : Bool :=
  let t := unsigned t
  let leading := !(t.head? == some 0x30)
  isBased "0b" (fun c => c == 0x30 || c == 0x31) t
    || isBased "0" (fun c => 0x30 ≤ c && c ≤ 0x37) t
    || isBased "0x" (fun c => (Text.hexValue? c).isSome) t
    || t == Text.ofString "0"
    || match Text.splitOn 0x3A t with
      | [] => false
      | first :: rest => leading && isSpacedNumber first && rest.all isSixtieth

/-- An exponent, with its sign, or nothing. -/
def isExponent : Text → Bool
  | [] => true
  | c :: d :: rest =>
    (c == 0x65 || c == 0x45) && (d == 0x2B || d == 0x2D) && !rest.isEmpty
      && rest.all Text.isDigit
  | _ => false

/-- A number with a point: digits on at least one side, or in steps of sixty; or an infinity or a
NaN. -/
def isFloat (t : Text) : Bool :=
  let body := unsigned t
  let signed := body.length < t.length
  let whole := body.takeWhile (· != 0x2E)
  let fraction := (body.drop whole.length).drop 1
  let rest := fraction.dropWhile isSpacedDigit
  let hasPoint := whole.length < body.length
  let steps := Text.splitOn 0x3A whole
  hasPoint &&
    ((isSpacedNumber whole && isExponent rest)
      || (whole.isEmpty && !signed && isSpacedNumber (fraction.takeWhile isSpacedDigit)
        && isExponent rest)
      || (1 < steps.length && isSpacedNumber (steps.headD []) && steps.tail.all isSixtieth
        && rest.isEmpty)
      || (whole.isEmpty && isWord ["inf", "Inf", "INF"] fraction)
      || (whole.isEmpty && !signed && isWord ["nan", "NaN", "NAN"] fraction))

/-- The kind of a scalar that is known by its spelling alone. -/
def ofSpelling (t : Text) : Kind :=
  if isWord truthWords t then .bool
  else if isWord nullWords t then .null
  else if isFloat t then .float
  else if isInt t then .int
  else if t == Text.ofString "<<" then .merge
  else if t == Text.ofString "=" then .value
  else if Timestamp.isWritten t then .timestamp
  else .text

end Kind

end XofConformance.Yaml
