import XofConformance.Fault
import XofConformance.Bytes.Basic

/-!
# Calls to the subject

A subject answers a call with byte strings or fails. It may keep a state or talk to the world, so
its answers come in a monad. A call that is answered with the wrong number of results has failed.
-/

namespace XofConformance

/-- One request: an operation, the number of results it is to give, and its arguments. -/
structure Call where
  op : Text
  expected : Int
  args : List Bytes
  deriving DecidableEq

/-- What a call comes to. -/
abbrev Outcome := Except Fault (List Bytes)

/-- The thing under test. -/
abbrev Subject (m : Type → Type) := Call → m Outcome

/-- The outcome of a call with its results counted and a defect taken as a crash. -/
def Call.settle (c : Call) : Outcome → Outcome
  | .error f => .error f.asFailure
  | .ok results =>
    if (results.length : Int) = c.expected then .ok results
    else .error (.subject (.resultCount c.op c.expected results.length))

/-- The settled outcome of a call to a subject. -/
def Subject.ask {m : Type → Type} [Monad m] (subject : Subject m) (c : Call) : m Outcome := do
  return c.settle (← subject c)

end XofConformance
