import XofConformance.Bytes.Codec
import XofConformance.Exchange.Desk
import XofConformance.Prepared.Basic

/-!
# Monte Carlo tests

A case is a chain of rounds. Each round takes the results of the one before, so it is waited for:
a round gives the next message, the next output length in bits and the next customization.
-/

namespace XofConformance.MonteCarlo

variable {m : Type → Type} [Monad m]

/-- The number of rounds of a chain. -/
def roundCount : Nat := 100

/-- What a round starts from. -/
structure State where
  msg : Bytes
  outLenBits : Number
  customization : Bytes := []
  deriving DecidableEq

/-- The arguments of a round; all lengths are in bits. -/
def arguments (bounds : Bounds) (s : State) : Except Fault (List Bytes) := do
  return [s.msg, ← Bytes.encodeWord bounds.minOutLen, ← Bytes.encodeWord bounds.maxOutLen,
    ← Bytes.encodeWord s.outLenBits, ← Bytes.encodeWord bounds.outLenIncrement, s.customization]

/-- The operation of a round. -/
def operation (algorithm : Text) : Text := algorithm ++ "/MCT"

/-- The state that the three results of a round lead to. -/
def nextState : List Bytes → Except Fault State
  | [msg, outLen, customization] =>
    match Bytes.decodeWord outLen with
    | .ok n => .ok { msg, outLenBits := .int n, customization }
    | .error why => .error (.encoding why)
  | results => .error (.subject (.resultCount [] 3 results.length))

/-- A fault in a round: what the subject or an encoding does wrong is told as a failure of the
round, everything else as it is. -/
def roundFault (algorithm : Text) : Fault → Fault
  | .subject why => .subject (.monteCarlo algorithm why.message)
  | .encoding why => .subject (.monteCarlo algorithm why.message)
  | f => f

/-- The call of a round and the state after it. -/
def attempt (subject : Subject m) (algorithm : Text) (bounds : Bounds) (s : State) :
    ExceptT Fault m State := do
  let args ← liftM (m := Except Fault) (arguments bounds s)
  let results ← ExceptT.mk (subject.ask { op := operation algorithm, expected := 3, args })
  liftM (m := Except Fault) (nextState results)

/-- The result that a state reports. -/
def State.result (s : State) : RoundResult :=
  { md := s.msg.toHex, outLen := .int s.msg.bitLength }

/-- One round: the next state and the result it reports. -/
def round (subject : Subject m) (algorithm : Text) (bounds : Bounds) (s : State) :
    ExceptT Fault m (State × RoundResult) := do
  let next ← (attempt subject algorithm bounds s).adapt (roundFault algorithm)
  return (next, next.result)

/-- The results of a number of rounds. -/
def chain (subject : Subject m) (algorithm : Text) (bounds : Bounds) :
    Nat → State → ExceptT Fault m (List RoundResult)
  | 0, _ => return []
  | n + 1, s => do
    let (next, result) ← round subject algorithm bounds s
    return result :: (← chain subject algorithm bounds n next)

/-- The answer to a case: a chain from its message, the greatest output length and no
customization. -/
def runCase (subject : Subject m) (algorithm : Text) (bounds : Bounds) (c : PreparedCase) :
    ExceptT Fault m TestResponse := do
  let start : State := { msg := c.msg, outLenBits := bounds.maxOutLen }
  return { tcId := c.tcId, rounds := ← chain subject algorithm bounds roundCount start }

end XofConformance.MonteCarlo
