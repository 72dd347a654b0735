import XofConformance.Comparison.Basic
import XofConformance.Json.Writer

/-!
# The report of a run

What a run found out before it ended, and how it ended. All that the report counts follows from
these, and so do the success of the run and its exit code.

    r.passed + r.failed = r.ran                                              (passed_add_failed)
-/

namespace XofConformance.CommandLine

/-- What is known of a run; what it has not come to yet is none or zero. -/
structure Facts where
  vectorsFile : Text
  actor : Option Text := none
  algorithm : Option Text := none
  groups : Nat := 0
  tests : Nat := 0

/-- How a run ends. -/
inductive Verdict
  /-- It stopped at a fault. -/
  | stopped (fault : Fault)
  /-- All tests were answered, and there is nothing to compare the answers with. -/
  | unchecked
  /-- The answers were compared with what is expected. -/
  | compared (r : Comparison.Report)

/-- The report of a run. -/
structure Report where
  facts : Facts
  verdict : Verdict

namespace Report

/-! ## Counts -/

/-- The number of tests that were judged. -/
def ran (r : Report) : Nat :=
  match r.verdict with
  | .stopped _ => 0
  | .unchecked => r.facts.tests
  | .compared c => c.ran

/-- The number of tests that are as they should be; an answer that is not checked is. -/
def passed (r : Report) : Nat :=
  match r.verdict with
  | .stopped _ => 0
  | .unchecked => r.facts.tests
  | .compared c => c.passed

/-- The number of tests that are not. -/
def failed (r : Report) : Nat :=
  match r.verdict with
  | .compared c => c.failed
  | _ => 0

/-- The failures of the comparison. -/
def failures (r : Report) : List Json :=
  match r.verdict with
  | .compared c => c.failures
  | _ => []

/-- The fault at which the run stopped. -/
def fault? (r : Report) : Option Fault :=
  match r.verdict with
  | .stopped f => some f
  | _ => none

/-- The run came to its end and no test failed. -/
def ok (r : Report) : Bool := r.fault?.isNone && r.failed == 0

/-- The exit code of the run. -/
def exitCode (r : Report) : Nat := if r.ok then 0 else 2

theorem passed_add_failed (r : Report) : r.passed + r.failed = r.ran := by
  obtain ⟨facts, verdict⟩ := r
  cases verdict with
  | compared c => exact c.ran_eq_passed_add_failed.symm
  | stopped | unchecked => rfl

/-! ## Written form -/

/-- The code and the message of a fault. -/
def faultJson (f : Fault) : Json :=
  .object [("reason_code", Json.ofOption .text f.reasonCode?), ("message", .text f.message)]

/-- The report as an object. -/
def toJson (r : Report) : Json :=
  .object [("ok", .bool r.ok), ("vectors_file", .text r.facts.vectorsFile),
    ("actor", Json.ofOption .text r.facts.actor),
    ("algorithm", Json.ofOption .text r.facts.algorithm),
    ("groups", .int r.facts.groups), ("tests", .int r.facts.tests),
    ("ran", .int r.ran), ("passed", .int r.passed), ("failed", .int r.failed),
    ("failures", .array r.failures), ("error", Json.ofOption faultJson r.fault?)]

/-! ## Words -/

/-- A fault in the words that a user sees. -/
def complaint : Fault → Text
  | .config (.absentActor path) => "ERROR: actor binary not found: " ++ path
  | f => Text.concat ["ERROR: ", (f.reasonCode?).getD [], ": ", f.message]

/-- How many failures are named to the user. -/
def maxNamed : Nat := 10

/-- A failure on one line. -/
def failureLine (failure : Json) : Text :=
  Text.concat ["- tg", (failure.field "tgId").shown, "/tc", (failure.field "tcId").shown, ": ",
    (failure.field "error").shown]

/-- What a user is told when the run did not succeed. -/
def complaints (r : Report) : List Text :=
  match r.fault? with
  | some f => [complaint f]
  | none =>
    if r.ok then []
    else Text.concat ["XOF vectors FAILED: ", Text.ofNat r.failed, " failing of ", Text.ofNat r.ran]
      :: (r.failures.take maxNamed).map failureLine

/-- What a user is told when the run succeeded. -/
def successLine (r : Report) : Text :=
  Text.concat ["XOF vectors OK: ", Text.ofNat r.passed, " / ", Text.ofNat r.ran, " (",
    r.facts.algorithm.getD [], ")"]

end Report

end XofConformance.CommandLine
