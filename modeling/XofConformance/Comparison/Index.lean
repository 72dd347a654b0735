import XofConformance.Fault
import XofConformance.Json.Equality

/-!
# Tests by their identifiers

A document's tests are found by the identifier of their group and their own. A repeated
identifier replaces what was there and keeps its place and its first spelling.
-/

namespace XofConformance.Comparison

/-- Values under keys, one to a key. -/
abbrev Table (α : Type) := List (Json × α)

namespace Table

variable {α : Type}

/-- The value under a key. -/
def find? (key : Json) : Table α → Option α
  | [] => none
  | (k, a) :: rest => if Json.sameKey k key then some a else find? key rest

/-- The table with a value under a key. -/
def put (key : Json) (a : α) : Table α → Table α
  | [] => [(key, a)]
  | (k, b) :: rest => if Json.sameKey k key then (k, a) :: rest else (k, b) :: put key a rest

end Table

/-- A value that may stand as an identifier. -/
def identifier (v : Json) : Except Fault Json :=
  if v.isKey then .ok v else .error (.defect .unhashable)

/-- The tests of a group by their identifiers; what is no object is passed over. -/
def testTable (table : Table Json) : List Json → Except Fault (Table Json)
  | [] => .ok table
  | .object fields :: rest => do
    let tcId ← identifier ((Json.object fields).field "tcId")
    testTable (table.put tcId (.object fields)) rest
  | _ :: rest => testTable table rest

/-- The groups of a document by their identifiers. -/
def groupTable (side : Side) (table : Table (Table Json)) :
    List Json → Except Fault (Table (Table Json))
  | [] => .ok table
  | group :: rest =>
    match (group.field "tests").items? with
    | none => .error (.input (.testsNotList side))
    | some tests => do
      let tests ← testTable [] tests
      let tgId ← identifier (group.field "tgId")
      groupTable side (table.put tgId tests) rest

/-- The tests in a list of groups. -/
def index (side : Side) (groups : Json) : Except Fault (Table (Table Json)) :=
  match groups with
  | .array groups => groupTable side [] groups
  | _ => .error (.input (.groupsNotList side))

end XofConformance.Comparison
