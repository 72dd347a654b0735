import XofConformance.Bytes.Codec
import XofConformance.Prepared.Basic
import XofConformance.VectorSet.Basic

/-!
# Validation

A vector set is prepared as a whole or not at all: the first group with a fault, and in it the
first case with one, refuses the set. A group's identifier is looked at first, then its type and
bounds, then its cases in order.
-/

namespace XofConformance

/-- The number is among the numbers seen so far, by its exact value. -/
def Number.isAmong (n : Number) (seen : List Number) : Bool := seen.any fun m => m.equal n

/-- The UTF-8 bytes of a text; a lone surrogate has none. -/
def encodeText (t : Text) : Except Fault Bytes :=
  match t.toUtf8? with
  | some b => .ok b
  | none => .error (.defect .unencodable)

namespace TestCase

/-! ## Cases -/

/-- The byte string that hexadecimal digits spell, or the defect that they are. -/
def hexBytes (tgId tcId : Number) (defect : EncodingFault → CaseDefect) (digits : Text) :
    Except Fault Bytes :=
  match Bytes.decodeHex digits with
  | .ok b => .ok b
  | .error why => .error (.vector (.inCase tgId tcId (defect why)))

/-- The customization, which may be given as a text or in hexadecimal but not as both. -/
def customizationBytes (tgId : Number) (t : TestCase) : Except Fault Bytes :=
  if !t.customization.isEmpty && !t.hexCustomization.isEmpty then
    .error (.vector (.inCase tgId t.tcId .twoCustomizations))
  else if !t.customization.isEmpty then encodeText t.customization
  else hexBytes tgId t.tcId .customization t.hexCustomization

/-- The arguments of a case. -/
def prepare (tgId : Number) (t : TestCase) : Except Fault PreparedCase := do
  let customization ← t.customizationBytes tgId
  let msg ← hexBytes tgId t.tcId .content t.msgHex
  if !Number.equal (.int msg.bitLength) t.bitLength then
    throw (.vector (.inCase tgId t.tcId (.length t.msgHex.length t.bitLength)))
  if !t.outLen.isWholeBytes then
    throw (.vector (.inCase tgId t.tcId (.fractionalOutput t.outLen)))
  let functionName ← encodeText t.functionName
  return { tcId := t.tcId, msg, functionName, customization, outLen := t.outLen }

/-- The arguments of the cases of a group, whose identifiers have to be distinct. -/
def prepareAll (tgId : Number) : List Number → List TestCase → Except Fault (List PreparedCase)
  | _, [] => .ok []
  | seen, t :: rest => do
    if t.tcId.isAmong seen then throw (.vector (.repeatedCase tgId t.tcId))
    let c ← t.prepare tgId
    return c :: (← prepareAll tgId (t.tcId :: seen) rest)

end TestCase

namespace TestGroup

/-! ## Groups -/

/-- A bound of a Monte Carlo group, which has to be there and to be whole bytes. -/
def bound (tgId : Number) (name : Text) : Option Number → Except Fault Number
  | none => .error (.vector (.group tgId (.missingBound name)))
  | some n =>
    if n.isWholeBytes then .ok n else .error (.vector (.group tgId (.fractionalBound name n)))

/-- The bounds of a group; a functional group has none. -/
def prepareBounds (g : TestGroup) : TestType → Except Fault Bounds
  | .functional => .ok {}
  | .monteCarlo => do
    let minOutLen ← bound g.tgId "minOutLen" g.minOutLen
    let maxOutLen ← bound g.tgId "maxOutLen" g.maxOutLen
    let outLenIncrement ← bound g.tgId "outLenIncrement" g.outLenIncrement
    if maxOutLen.lt minOutLen then
      throw (.vector (.group g.tgId (.boundOrder minOutLen maxOutLen)))
    return { minOutLen, maxOutLen, outLenIncrement }

/-- The group with its cases prepared. -/
def prepare (g : TestGroup) : Except Fault PreparedGroup :=
  match TestType.ofName? g.testType with
  | none => .error (.vector (.group g.tgId (.unknownType g.testType)))
  | some testType => do
    let bounds ← g.prepareBounds testType
    let cases ← TestCase.prepareAll g.tgId [] g.tests
    return { tgId := g.tgId, testType, cases, bounds }

/-- The groups prepared, whose identifiers have to be distinct. -/
def prepareAll : List Number → List TestGroup → Except Fault (List PreparedGroup)
  | _, [] => .ok []
  | seen, g :: rest => do
    if g.tgId.isAmong seen then throw (.vector (.repeatedGroup g.tgId))
    let p ← g.prepare
    return p :: (← prepareAll (g.tgId :: seen) rest)

end TestGroup

/-- The groups of a vector set, ready to be run. -/
def VectorSet.prepare (vs : VectorSet) : Except Fault (List PreparedGroup) :=
  TestGroup.prepareAll [] vs.groups

end XofConformance
