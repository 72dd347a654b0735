import XofConformance.Exchange.Desk

/-!
# The assembler

The list of the groups that were closed, which a client keeps beside its desk. A group is put on the
list at a checkpoint, as it stands there, and never before all calls handed over so far have
succeeded; the list is given out once the pool was drained.
-/

namespace XofConformance

/-- The groups that were closed, in the order of the closing, and whatever else the client keeps. -/
structure Assembler (ε : Type) where
  output : List GroupResponse := []
  extra : ε

namespace Assembler

variable {ε : Type} {m : Type → Type} [Monad m]

/-- The desk with one more group on the list. -/
def append (g : GroupResponse) (d : Desk (Assembler ε)) : Desk (Assembler ε) :=
  { d with extra := { d.extra with output := d.extra.output ++ [g] } }

/-- Puts a group on the list as it stands, if no slot of it is empty. -/
def emit (group : Nat) : Exchange (Desk (Assembler ε)) m Unit := do
  let g ← Desk.collect group
  modify fun p => { p with client := append g p.client }

/-- Puts a group on the list once all calls handed over so far have succeeded. -/
def close (env : Setting (Desk (Assembler ε)) m) (group : Nat) :
    Exchange (Desk (Assembler ε)) m Unit :=
  env.checkpoint (emit group)

/-- The list, once nothing is left to do and no failure is left to be raised. -/
def finish (env : Setting (Desk (Assembler ε)) m) :
    Exchange (Desk (Assembler ε)) m (List GroupResponse) := do
  env.drain
  return (← get).client.extra.output

end Assembler

end XofConformance
