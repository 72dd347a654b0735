import XofConformance.Fault

/-!
# The shape of a vector set

A shape says of which kind a value is, which fields an object has to have and which it may have,
and between which bounds a number lies. Checking a value lists every violation; the list is put
in the order of the places, and at one place the kind comes before the bounds.
-/

namespace XofConformance

/-- The kinds of values that a shape tells apart. -/
inductive Kind
  | object
  | array
  | text
  | integer
  | truth
  deriving DecidableEq

/-- The name of a kind in messages. -/
def Kind.name : Kind → Text
  | .object => "object"
  | .array => "array"
  | .text => "string"
  | .integer => "integer"
  | .truth => "boolean"

/-- The value is of the kind; a number worth an integer is one in whichever form. -/
def Kind.accepts : Kind → Json → Bool
  | .object, .object _ | .array, .array _ | .text, .text _ | .truth, .bool _ => true
  | .integer, .number n => n.isIntegral
  | _, _ => false

/-- What a value has to look like. -/
inductive Shape
  | value (kind : Kind) (least greatest : Option Nat)
  | list (item : Shape)
  | record (required : List Text) (fields : List (Text × Shape))

namespace Shape

/-! ## Checking -/

/-- The violation of a kind, if the value is of another. -/
def kindViolation (kind : Kind) (path : List Text) (v : Json) : List Violation :=
  if kind.accepts v then [] else [{ path, defect := .kind v kind.name }]

/-- The violations of bounds; only numbers have any. -/
def boundViolations (least greatest : Option Nat) (path : List Text) : Json → List Violation
  | .number n =>
    (least.toList.filter fun (k : Nat) => n.lt (.int k)).map
        (fun k => { path, defect := .below (.number n) k })
      ++ (greatest.toList.filter fun (k : Nat) => Number.lt (.int k) n).map
        (fun k => { path, defect := .above (.number n) k })
  | _ => []

mutual

/-- The violations in a value at a place. -/
def violations : Shape → List Text → Json → List Violation
  | .value kind least greatest, path, v =>
    kindViolation kind path v ++ boundViolations least greatest path v
  | .list item, path, v =>
    match v with
    | .array items =>
      items.zipIdx.flatMap fun p => violations item (path ++ [Text.ofNat p.2]) p.1
    | _ => kindViolation .array path v
  | .record required fields, path, v =>
    match v with
    | .object present =>
      (required.filter fun key => (Json.lookup key present).isNone).map
          (fun key => { path, defect := .missing key })
        ++ fieldViolations fields path present
    | _ => kindViolation .object path v

/-- The violations in the fields that are there. -/
def fieldViolations : List (Text × Shape) → List Text → List (Text × Json) → List Violation
  | [], _, _ => []
  | (key, shape) :: rest, path, present =>
    (match Json.lookup key present with
      | some v => violations shape (path ++ [key]) v
      | none => []) ++ fieldViolations rest path present

end

/-- All violations in the order of their places, texts compared by code points. -/
def check (shape : Shape) (v : Json) : List Violation :=
  (shape.violations [] v).mergeSort fun a b => !List.lex b.path a.path Text.precedes

/-! ## Vector sets -/

/-- Any text. -/
def anyText : Shape := .value .text none none

/-- An integer from zero on. -/
def natural : Shape := .value .integer (some 0) none

/-- An integer that is a word of 32 bits. -/
def word : Shape := .value .integer (some 0) (some 0xFFFFFFFF)

/-- A test case. -/
def testCase : Shape :=
  .record ["tcId", "msg", "len"]
    [("tcId", natural), ("msg", anyText), ("len", natural), ("functionName", anyText),
     ("customization", anyText), ("hexCustomization", anyText), ("outLen", word)]

/-- A test group. -/
def testGroup : Shape :=
  .record ["tgId", "testType", "tests"]
    [("tgId", natural), ("testType", anyText), ("hexCustomization", .value .truth none none),
     ("maxOutLen", word), ("minOutLen", word), ("outLenIncrement", word),
     ("tests", .list testCase)]

/-- The body of a vector set. -/
def vectorSet : Shape :=
  .record ["testGroups"]
    [("vsId", natural), ("algorithm", anyText), ("revision", anyText),
     ("isSample", .value .truth none none), ("testGroups", .list testGroup)]

end Shape

end XofConformance
