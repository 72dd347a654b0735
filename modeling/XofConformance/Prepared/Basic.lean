import XofConformance.Number.Basic
import XofConformance.Bytes.Basic

/-!
# Prepared groups

What is left of a test group once it is known to be well formed: byte strings in place of texts,
and the three bounds of a Monte Carlo group.
-/

namespace XofConformance

/-- The types of tests. -/
inductive TestType
  /-- Every case is a call of its own. -/
  | functional
  /-- Every case is a chain of calls. -/
  | monteCarlo
  deriving DecidableEq

/-- The name of a type in documents. -/
def TestType.name : TestType → Text
  | .functional => "AFT"
  | .monteCarlo => "MCT"

/-- The type of a name. -/
def TestType.ofName? (name : Text) : Option TestType :=
  [TestType.functional, .monteCarlo].find? fun type => type.name == name

/-- The arguments of one test. -/
structure PreparedCase where
  tcId : Number
  msg : Bytes
  functionName : Bytes
  customization : Bytes
  outLen : Number
  deriving DecidableEq

/-- The bounds of the output length in a chain, in bits. -/
structure Bounds where
  minOutLen : Number := .int 0
  maxOutLen : Number := .int 0
  outLenIncrement : Number := .int 0
  deriving DecidableEq

/-- The tests of one group. -/
structure PreparedGroup where
  tgId : Number
  testType : TestType
  cases : List PreparedCase
  bounds : Bounds := {}
  deriving DecidableEq

end XofConformance
