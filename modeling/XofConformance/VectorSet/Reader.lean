import XofConformance.VectorSet.Basic
import XofConformance.VectorSet.Document
import XofConformance.VectorSet.Envelope
import XofConformance.VectorSet.Shape

/-!
# Reading vector sets

A document is loaded, taken out of its envelope and checked against the shape of a vector set.
After the check every required field is there and every field is of its kind, so the records are
filled without further faults.
-/

namespace XofConformance

/-- A text field, empty if it is not there. -/
def Json.textField (key : Text) (v : Json) : Text := ((v.field? key).bind Json.text?).getD []

/-- A number field. -/
def Json.numberField? (key : Text) (v : Json) : Option Number := (v.field? key).bind Json.number?

/-- The items of a list field. -/
def Json.itemsField (key : Text) (v : Json) : List Json := ((v.field? key).bind Json.items?).getD []

/-- The test case that a checked object describes. -/
def TestCase.ofJson (v : Json) : TestCase where
  tcId := (v.numberField? "tcId").getD (.int 0)
  msgHex := v.textField "msg"
  bitLength := (v.numberField? "len").getD (.int 0)
  functionName := v.textField "functionName"
  customization := v.textField "customization"
  hexCustomization := v.textField "hexCustomization"
  outLen := (v.numberField? "outLen").getD (.int 0)

/-- The test group that a checked object describes. -/
def TestGroup.ofJson (v : Json) : TestGroup where
  tgId := (v.numberField? "tgId").getD (.int 0)
  testType := v.textField "testType"
  tests := (v.itemsField "tests").map TestCase.ofJson
  hexCustomization := ((v.field? "hexCustomization").bind Json.bool?).getD false
  maxOutLen := v.numberField? "maxOutLen"
  minOutLen := v.numberField? "minOutLen"
  outLenIncrement := v.numberField? "outLenIncrement"

namespace VectorSet

/-- The vector set that a checked body describes. -/
def ofBody (body : Json) (version : Option Text) : VectorSet where
  groups := (body.itemsField "testGroups").map TestGroup.ofJson
  vsId := body.numberField? "vsId"
  algorithm := (body.field? "algorithm").bind Json.text?
  revision := (body.field? "revision").bind Json.text?
  isSample := (body.field? "isSample").bind Json.bool?
  acvVersion := version

/-- The vector set that a document holds. -/
def ofDocument (document : Document) : Except Fault VectorSet := do
  let (body, version) ← Envelope.unwrap (← document.load)
  match Shape.vectorSet.check body with
  | [] => return ofBody body version
  | violations => throw (.input (.shape violations))

end VectorSet

end XofConformance
