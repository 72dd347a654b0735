import XofConformance.Number.Basic

/-!
# Vector sets

A vector set is a list of test groups, a group a list of test cases of one type. Numbers keep the
form they were written in.
-/

namespace XofConformance

/-- One test: a message in hexadecimal, its length in bits, and what the function takes beside
it. Fields that a document leaves out are empty or zero. -/
structure TestCase where
  tcId : Number
  msgHex : Text
  bitLength : Number
  functionName : Text := []
  customization : Text := []
  hexCustomization : Text := []
  outLen : Number := .int 0
  deriving DecidableEq

/-- Tests of one type. The bounds on the output length belong to the Monte Carlo type. -/
structure TestGroup where
  tgId : Number
  testType : Text
  tests : List TestCase
  hexCustomization : Bool := false
  maxOutLen : Option Number := none
  minOutLen : Option Number := none
  outLenIncrement : Option Number := none
  deriving DecidableEq

/-- A whole set, with what its document says about it. -/
structure VectorSet where
  groups : List TestGroup
  vsId : Option Number := none
  algorithm : Option Text := none
  revision : Option Text := none
  isSample : Option Bool := none
  /-- The version of the protocol, if the document came in an envelope. -/
  acvVersion : Option Text := none
  deriving DecidableEq

/-- The number of tests in all groups. -/
def VectorSet.testCount (vs : VectorSet) : Nat := (vs.groups.flatMap (·.tests)).length

end XofConformance
