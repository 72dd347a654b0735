import XofConformance.Fault
import XofConformance.Json.Writer
import XofConformance.Xml

/-!
# JUnit reports

A suite with one element for every test that was compared, in the order of the report. The cases
are taken as they stand in a written report: what has neither passed nor failed is left out.
-/

namespace XofConformance.Junit

/-! ## Cases -/

/-- The status of a case; only an object can have one. -/
def status (c : Json) : Except Fault Json :=
  match c with
  | .object _ => .ok (c.field "status")
  | _ => .error (.defect .notObject)

/-- The case failed. -/
def isFailed (status : Json) : Bool := status.text? == some (Text.ofString "failed")

/-- The case was compared. -/
def isCompared (status : Json) : Bool :=
  isFailed status || status.text? == some (Text.ofString "passed")

/-- The compared cases, each with whether it failed. -/
def compared : List Json → Except Fault (List (Json × Bool))
  | [] => .ok []
  | c :: rest => do
    let s ← status c
    let rest ← compared rest
    return if isCompared s then (c, isFailed s) :: rest else rest

/-- The name of a case, which has to be a text. -/
def caseName (c : Json) : Except Fault Text :=
  match c.field? "id" with
  | some (.text t) => .ok t
  | some _ => .error (.defect .notObject)
  | none => .error (.defect .missingField)

/-- What is shown for a failure: the words of the case, or a general word. Words that are no text
are shown as they are. -/
def failureMessage (error : Json) : Xml.Attribute :=
  if error.isEmpty then .ofText "message" "mismatch"
  else match error with
    | .text t => .ofText "message" t
    | v => { name := "message", written := v.shown }

/-- The words of a case can be written: a text can, and a list or an object of nothing special. -/
def isWritable (error : Json) : Bool :=
  let special (t : Json) : Bool :=
    match t with
    | .text [c] => Xml.escapeAttribute c != [c]
    | _ => false
  error.isEmpty ||
    match error with
    | .text _ => true
    | .array items => !items.any special
    | .object fields => !fields.any fun f => special (.text f.1)
    | _ => false

/-- The values of a failed case on one line. -/
def details (c : Json) : Text :=
  Json.write Json.spaced
    (Json.sortKeys (.object [("expected", c.field "expected"), ("actual", c.field "actual")]))

/-- The element of a case. -/
def caseElement (suite : Text) (c : Json) (failed : Bool) : Except Fault Xml.Element := do
  let name ← caseName c
  let failure : Xml.Element :=
    .mk "failure" [.ofText "type" "mismatch", failureMessage (c.field "error")] (details c) []
  return .mk "testcase"
    [.ofText "classname" (Text.concat [suite, ".", Text.before 0x2F name]), .ofText "name" name] []
    (if failed then [failure] else [])

/-- The elements of the compared cases. -/
def caseElements (suite : Text) : List (Json × Bool) → Except Fault (List Xml.Element)
  | [] => .ok []
  | (c, failed) :: rest => do
    let e ← caseElement suite c failed
    return e :: (← caseElements suite rest)

/-! ## Suites -/

/-- The element of a suite. -/
def suiteElement (suite : Text) (cases : List (Json × Bool)) (elements : List Xml.Element) :
    Xml.Element :=
  .mk "testsuite"
    [.ofText "name" suite, .ofText "tests" (Text.ofNat cases.length),
     .ofText "failures" (Text.ofNat (cases.filter (·.2)).length), .ofText "errors" "0"] []
    elements

/-- The report of a suite as a document. -/
def report (suite : Text) (cases : List Json) : Except Fault Text := do
  let cases ← compared cases
  let elements ← caseElements suite cases
  if cases.any fun c => c.2 && !isWritable (c.1.field "error") then throw (.defect .notText)
  return Xml.document (suiteElement suite cases elements)

end XofConformance.Junit
