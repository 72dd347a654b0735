import XofConformance.Actor.Link

/-!
# Channels

The way to an actor: lines go to it and lines come from it. A call is sent over a link and what
comes is heard until the call is answered. An actor that is silent, or writes too many lines
without answering, has not answered in time; nor has one whose bytes are no text, for nobody hears
it after that.
-/

namespace XofConformance.Actor

/-- What comes from an actor. -/
inductive Received
  | line (t : Text)
  /-- Bytes that are no text. -/
  | garbled
  | ended (code : Option Int)
  | silence
  deriving DecidableEq

/-- The two ends of a way to an actor. -/
structure Channel (m : Type → Type) where
  send : Text → m (Except Text Unit)
  receive : m Received

namespace Channel

variable {m : Type → Type} [Monad m]

/-- How many lines are heard before an answer is late. -/
def maxLines : Nat := 1000000

/-- Hears lines until a request is answered. -/
def await (channel : Channel m) (late : ActorFault) (id : Nat) :
    Nat → Link → m (Answer × Link)
  | 0, l => return (.error late, l.withdraw id)
  | fuel + 1, l => do
    let (l, answers) ← match ← channel.receive with
      | .line t => pure (l.hear t)
      | .garbled => pure (l.deafen, [])
      | .ended code => pure (l.hangUp code)
      | .silence => pure (l.withdraw id, [(id, .error late)])
    match answers.lookup id with
    | some a => return (a, l)
    | none => channel.await late id fuel l

/-- The actor at the other end as a subject; what is not answered within `seconds` has failed. -/
def subject (channel : Channel m) (seconds : Binary64) : Subject (StateT Link m) := fun c l => do
  let (sent, l) ← l.submit channel.send c
  match sent with
  | .error why => return (.error (.subject (.actor why)), l)
  | .ok id =>
    let (a, l) ← channel.await (.silent c.op seconds) id maxLines l
    return (a.mapError fun why => .subject (.actor why), l)

end Channel

end XofConformance.Actor
