import XofConformance.Run.Process
import XofConformance.VectorSet.Reader

/-!
# Sources of vector sets

A run is given a vector set as it is, or a document that has to hold one. Several sources may be
run one after the other on one pool, each for an algorithm of its own.
-/

namespace XofConformance

/-- Where a vector set comes from. -/
inductive Source
  | vectorSet (vs : VectorSet)
  | document (d : Document)

namespace Source

variable {ε : Type} {m : Type → Type} [Monad m]

/-- The vector set that a source gives. -/
def read : Source → Except Fault VectorSet
  | .vectorSet vs => .ok vs
  | .document d => VectorSet.ofDocument d

/-- The groups of a source, ready to be run. -/
def prepare (s : Source) : Except Fault (List PreparedGroup) := do
  (← s.read).prepare

/-- The responses of the vector set that a source gives. -/
def run (env : Setting (Desk ε) m) (algorithm : Text) (s : Source) :
    Exchange (Desk ε) m (List GroupResponse) := do
  let vs ← liftM (m := Except Fault) s.read
  vs.run env algorithm

/-- Runs sources one after the other, whatever each comes to. It is told with the pool as it was
left. -/
def runEach (env : Setting (Desk ε) m) : List (Text × Source) →
    StateT (Pool (Desk ε)) m (List (Except Fault (List GroupResponse) × Pool (Desk ε)))
  | [] => return []
  | (algorithm, s) :: rest => do
    let outcome ← (s.run env algorithm).run
    let p ← get
    return (outcome, p) :: (← runEach env rest)

end Source

end XofConformance
