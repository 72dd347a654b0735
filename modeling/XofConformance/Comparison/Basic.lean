import XofConformance.Comparison.Index
import XofConformance.Comparison.Normal
import XofConformance.VectorSet.Document
import XofConformance.VectorSet.Envelope

/-!
# Comparing responses with expected results

Every expected test is looked up in the response. If it has rounds, these are compared one by
one; otherwise the digest and the output length are compared as far as the expected test has
them. The report lists the expected tests in their order.

    report.ran = report.passed + report.failed                           (ran_eq_passed_add_failed)
-/

namespace XofConformance.Comparison

/-! ## Tests -/

/-- How a test differs from what is expected. -/
inductive Mismatch
  | absent
  | noRounds
  | roundCount (got expected : Nat)
  | round (index : Nat)
  | field (key : Text)
  deriving DecidableEq

/-- The difference in words. -/
def Mismatch.message : Mismatch → Text
  | .absent => "missing from response"
  | .noRounds => "missing resultsArray"
  | .roundCount got expected =>
    Text.concat ["resultsArray length ", Text.ofNat got, " != expected ", Text.ofNat expected]
  | .round index => Text.concat ["resultsArray[", Text.ofNat index, "] mismatch"]
  | .field key => key ++ " mismatch"

/-- The parts of a value that are compared one by one: the items of an array, the code points of
a text, the keys of an object. -/
def parts? : Json → Option (List Json)
  | .array items => some items
  | .text t => some (t.map fun c => .text [c])
  | .object fields => some (fields.map fun f => .text f.1)
  | _ => none

/-- The position of the first two parts that differ. -/
def firstDifference (position : Nat) : List Json → List Json → Option Nat
  | g :: gs, e :: es =>
    if deepEqual g e then firstDifference (position + 1) gs es else some position
  | _, _ => none

/-- Compares the rounds of two tests. -/
def compareRounds (got expected : Json) : Except Fault (Option Mismatch) :=
  match got.items? with
  | none => .ok (some .noRounds)
  | some got =>
    match parts? expected with
    | none => .error (.defect .uncountable)
    | some expected =>
      if got.length ≠ expected.length then .ok (some (.roundCount got.length expected.length))
      else .ok ((firstDifference 0 got expected).map .round)

/-- The first of the keys under which an expected test differs. -/
def compareFields (got expected : Json) (keys : List Text) : Option Mismatch :=
  (keys.find? fun key =>
    match expected.field? key with
    | none => false
    | some e => !deepEqual (.object [(key, got.field key)]) (.object [(key, e)])).map .field

/-- Compares a test with the expected one. -/
def compareTest (got expected : Json) : Except Fault (Option Mismatch) :=
  match expected.field "resultsArray" with
  | .null => .ok (compareFields got expected [digestKey, "outLen"])
  | rounds => compareRounds (got.field "resultsArray") rounds

/-! ## Reports -/

/-- A test that failed: how it differs, what was expected, and what there is instead. -/
structure Failure where
  mismatch : Mismatch
  expected : Json
  actual : Json

/-- One expected test and how it fared. -/
structure CaseReport where
  tgId : Json
  tcId : Json
  failure : Option Failure

/-- The expected tests in their order. -/
structure Report where
  cases : List CaseReport

namespace Report

/-- The number of tests compared. -/
def ran (r : Report) : Nat := r.cases.length

/-- The number of tests that are as expected. -/
def passed (r : Report) : Nat := (r.cases.filter fun c => c.failure.isNone).length

/-- The number of tests that are not. -/
def failed (r : Report) : Nat := (r.cases.filter fun c => c.failure.isSome).length

theorem ran_eq_passed_add_failed (r : Report) : r.ran = r.passed + r.failed := by
  unfold ran passed failed
  induction r.cases with
  | nil => rfl
  | cons c rest ih => cases h : c.failure <;> simp [h] <;> omega

end Report

/-- The name of a test: its group and its own identifier. -/
def CaseReport.id (c : CaseReport) : Text :=
  Text.concat ["tg", c.tgId.shown, "/tc", c.tcId.shown]

/-- Compares an expected test with the tests of its group in the response. -/
def compareCase (tgId : Json) (got : Table Json) (tcId expected : Json) :
    Except Fault CaseReport := do
  match got.find? tcId with
  | none =>
    return { tgId, tcId, failure := some { mismatch := .absent, expected, actual := .null } }
  | some actual =>
    let mismatch ← compareTest actual expected
    return { tgId, tcId, failure := mismatch.map fun mismatch => { mismatch, expected, actual } }

/-- Compares the expected tests of a group. -/
def compareGroup (tgId : Json) (got : Table Json) : Table Json → Except Fault (List CaseReport)
  | [] => .ok []
  | (tcId, expected) :: rest => do
    let c ← compareCase tgId got tcId expected
    return c :: (← compareGroup tgId got rest)

/-- Compares the expected tests of all groups. -/
def compareGroups (got : Table (Table Json)) :
    Table (Table Json) → Except Fault (List CaseReport)
  | [] => .ok []
  | (tgId, tests) :: rest => do
    let cases ← compareGroup tgId ((got.find? tgId).getD []) tests
    return cases ++ (← compareGroups got rest)

/-- Compares the groups of a response with a document of expected results. -/
def compareResponses (got : Json) (expected : Document) : Except Fault Report := do
  let (body, _) ← Envelope.unwrap (← expected.load)
  if body.fields?.isNone then throw (.input .expectedNotObject)
  let expected ← index .expected (body.field "testGroups")
  let got ← index .response got
  return { cases := ← compareGroups got expected }

/-! ## Written form -/

/-- A case as an object. -/
def CaseReport.toJson (c : CaseReport) : Json :=
  match c.failure with
  | none => .object [("id", .text c.id), ("status", .text "passed")]
  | some f =>
    .object [("id", .text c.id), ("status", .text "failed"), ("error", .text f.mismatch.message),
      ("expected", f.expected), ("actual", f.actual)]

/-- The failures as objects, in the order of the cases. -/
def Report.failures (r : Report) : List Json :=
  r.cases.filterMap fun c => c.failure.map fun f =>
    .object [("tgId", c.tgId), ("tcId", c.tcId), ("error", .text f.mismatch.message)]

/-- A report as an object. -/
def Report.toJson (r : Report) : Json :=
  .object [("ran", .int r.ran), ("passed", .int r.passed), ("failed", .int r.failed),
    ("failures", .array r.failures), ("cases", .array (r.cases.map CaseReport.toJson))]

end XofConformance.Comparison
