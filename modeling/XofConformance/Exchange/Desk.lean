import XofConformance.Exchange.Pool
import XofConformance.Response

/-!
# The desk

The state that deliveries write to: the groups that are open, each known by the number it got
when it was opened, and whatever else the client keeps. A group is closed at a checkpoint; what
is filled in afterwards does not change what was handed out.
-/

namespace XofConformance

/-- The open groups and the client's own state. -/
structure Desk (ε : Type) where
  groups : List OpenGroup := []
  extra : ε

namespace Desk

variable {ε : Type} {m : Type → Type} [Monad m]

/-- The desk with an answer in a slot of a group. -/
def fill (group index : Nat) (r : TestResponse) (d : Desk ε) : Except Fault (Desk ε) :=
  match (d.groups[group]?).bind fun g => g.fill? index r with
  | some g => .ok { d with groups := d.groups.set group g }
  | none => .error (.defect .slotRange)

/-- Opens a group of empty slots and gives its number. -/
def openGroup (tgId : Number) (count : Nat) : Exchange (Desk ε) m Nat := do
  let p ← get
  set { p with client := { p.client with groups := p.client.groups ++ [OpenGroup.empty tgId count] } }
  return p.client.groups.length

/-- Puts an answer into a slot at once. -/
def fillNow (group index : Nat) (r : TestResponse) : Exchange (Desk ε) m Unit := do
  let p ← get
  match p.client.fill group index r with
  | .ok d => set { p with client := d }
  | .error f => throw f

/-- The group as it stands, if no slot of it is empty. -/
def collect (group : Nat) : Exchange (Desk ε) m GroupResponse := do
  let g := ((← get).client.groups[group]?).getD (.empty (.int 0) 0)
  if g.missing.isEmpty then return g.snapshot
  else throw (.subject (.missingResults g.tgId g.missing.length))

/-- Collects a group once all calls handed over so far have succeeded. -/
def closeGroup (env : Setting (Desk ε) m) (group : Nat) : Exchange (Desk ε) m GroupResponse :=
  env.checkpoint (collect group)

end Desk

end XofConformance
