import XofConformance.Prepared.Validation
import XofConformance.Run.Functional
import XofConformance.Run.MonteCarlo

/-!
# Running a vector set

The set is prepared as a whole before the first call. Then the groups are run one after the
other, each closed before the next one is opened. If a group fails, the pool is drained, so that
it is idle again for the next set, and the fault is passed on.
-/

namespace XofConformance

variable {ε : Type} {m : Type → Type} [Monad m]

/-- Runs the cases of a Monte Carlo group from a position on, each into its slot. -/
def MonteCarlo.fillFrom (env : Setting (Desk ε) m) (algorithm : Text) (bounds : Bounds)
    (group : Nat) : Nat → List PreparedCase → Exchange (Desk ε) m Unit
  | _, [] => return
  | index, c :: rest => do
    let r ← ExceptT.mk (liftM (runCase env.subject algorithm bounds c).run)
    Desk.fillNow group index r
    fillFrom env algorithm bounds group (index + 1) rest

namespace PreparedGroup

/-- Opens a group, runs its cases and closes it. -/
def run (env : Setting (Desk ε) m) (algorithm : Text) (g : PreparedGroup) :
    Exchange (Desk ε) m GroupResponse := do
  let group ← Desk.openGroup g.tgId g.cases.length
  match g.testType with
  | .functional => Functional.submit env algorithm g.cases group
  | .monteCarlo => MonteCarlo.fillFrom env algorithm g.bounds group 0 g.cases
  Desk.closeGroup env group

/-- Runs groups one after the other. -/
def runAll (env : Setting (Desk ε) m) (algorithm : Text) :
    List PreparedGroup → Exchange (Desk ε) m (List GroupResponse)
  | [] => return []
  | g :: rest => do
    let r ← g.run env algorithm
    return r :: (← runAll env algorithm rest)

/-- Runs groups and leaves the pool idle, whether they succeed or not. -/
def runDrained (env : Setting (Desk ε) m) (algorithm : Text) (groups : List PreparedGroup) :
    Exchange (Desk ε) m (List GroupResponse) := do
  let responses ← tryCatch (runAll env algorithm groups) fun f => do
    tryCatch env.drain fun _ => return
    throw f
  env.drain
  return responses

end PreparedGroup

/-- The responses of a vector set. -/
def VectorSet.run (env : Setting (Desk ε) m) (algorithm : Text) (vs : VectorSet) :
    Exchange (Desk ε) m (List GroupResponse) := do
  let groups ← liftM (m := Except Fault) vs.prepare
  PreparedGroup.runDrained env algorithm groups

end XofConformance
