import XofConformance.Bytes.Codec
import XofConformance.Exchange.Desk
import XofConformance.Prepared.Basic

/-!
# Functional tests

Every case is independent of the others, so all calls of a group are handed to the pool at once.
The answer goes to the slot at the position of its case, so the order in which the subject works
does not show.
-/

namespace XofConformance.Functional

variable {ε : Type} {m : Type → Type} [Monad m]

/-- The arguments of a test: the message, the length of the output in bytes, the function name
and the customization. -/
def arguments (c : PreparedCase) : Except Fault (List Bytes) := do
  return [c.msg, ← Bytes.encodeWord c.outLen.bytes, c.functionName, c.customization]

/-- The answer that the first result of a call makes. -/
def response (c : PreparedCase) (results : List Bytes) : TestResponse :=
  { tcId := c.tcId, md := (results.headD []).toHex, outLen := c.outLen }

/-- Hands the calls of the cases from a position on to the pool. -/
def submitFrom (env : Setting (Desk ε) m) (algorithm : Text) (group : Nat) :
    Nat → List PreparedCase → Exchange (Desk ε) m Unit
  | _, [] => return
  | index, c :: rest => do
    let args ← liftM (m := Except Fault) (arguments c)
    env.submit { op := algorithm, expected := 1, args }
      fun results desk => desk.fill group index (response c results)
    submitFrom env algorithm group (index + 1) rest

/-- Hands all calls of a group to the pool. -/
def submit (env : Setting (Desk ε) m) (algorithm : Text) (cases : List PreparedCase)
    (group : Nat) : Exchange (Desk ε) m Unit :=
  submitFrom env algorithm group 0 cases

end XofConformance.Functional
