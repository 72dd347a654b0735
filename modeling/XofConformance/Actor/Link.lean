import XofConformance.Actor.Message
import XofConformance.Json.Equality
import XofConformance.Json.Reader
import XofConformance.Text.Blank

/-!
# The link to an actor

Requests get identifiers in turn and wait until the actor answers them; the order of the answers
is the actor's. The link has two sides that take their steps independently: a caller takes an
identifier, registers it, and may withdraw it; the listener hears what the actor writes. An answer
to no request that waits, something that is no JSON, or the end of the output is the death of the
link: all requests that wait fail, and none is registered any more. Two things end the listening
without the death of the link: bytes that are no text, and an identifier that can be no key while
requests wait.

    l.dead.isSome → (l.register id).isOk = false                         (register_of_dead)
-/

namespace XofConformance.Actor

/-- The state of a link. -/
structure Link where
  /-- The identifier that was taken last. -/
  lastId : Nat := 0
  /-- The requests that wait for an answer, oldest first. -/
  waiting : List Nat := []
  /-- Why the link is dead. -/
  dead : Option ActorFault := none
  /-- What the actor writes is heard. -/
  listening : Bool := true
  /-- Something can be written to the actor at all. -/
  writable : Bool := true

/-- Answers by the identifiers of their requests. -/
abbrev Answers := List (Nat × Answer)

namespace Link

/-! ## The caller -/

/-- The next identifier. -/
def take (l : Link) : Nat × Link := (l.lastId + 1, { l with lastId := l.lastId + 1 })

/-- Lets a request wait for its answer. -/
def register (id : Nat) (l : Link) : Except ActorFault Link :=
  if !l.writable then .error .noStdin
  else match l.dead with
    | some why => .error why
    | none => .ok { l with waiting := l.waiting ++ [id] }

/-- A request no longer waits. -/
def withdraw (id : Nat) (l : Link) : Link :=
  { l with waiting := l.waiting.filter (· != id) }

/-! ## The listener -/

/-- The death of the link: every request that waits fails. -/
def die (why : ActorFault) (l : Link) : Link × Answers :=
  ({ l with dead := some why, waiting := [], listening := false },
    l.waiting.map fun id => (id, .error why))

/-- Nobody hears the actor any more. The link is not dead, and whoever waits goes on waiting. -/
def deafen (l : Link) : Link := { l with listening := false }

/-- A reply that was read: it answers the request with its identifier. Among requests that wait, an
identifier that can be no key cannot be looked up, and that ends the listening and nothing else; if
none waits, it is as unknown as any other. -/
def receive (reply : Json) (l : Link) : Link × Answers :=
  let id := reply.field "id"
  if !id.isKey && !l.waiting.isEmpty then (l.deafen, [])
  else match l.waiting.find? fun (n : Nat) => Json.sameKey (.int n) id with
    | some n => (l.withdraw n, [(n, answerOf reply)])
    | none => l.die (.unknownId id)

/-- A line that the actor writes; a blank one says nothing. -/
def hear (line : Text) (l : Link) : Link × Answers :=
  let line := Text.strip line
  if !l.listening || line.isEmpty then (l, [])
  else match Json.read line with
    | .ok reply => l.receive reply
    | .error f => l.die (.notJson f)

/-- The end of what the actor writes, with its exit code if it has one. -/
def hangUp (code : Option Int) (l : Link) : Link × Answers :=
  if l.listening then l.die (.terminated code) else (l, [])

/-- Several lines one after the other. -/
def hearAll : List Text → Link → Link × Answers
  | [], l => (l, [])
  | line :: rest, l =>
    let (l, answers) := l.hear line
    let (l, more) := hearAll rest l
    (l, answers ++ more)

/-! ## Requests -/

/-- Takes an identifier, registers it and writes the request; a request that cannot be written is
withdrawn. -/
def submit {m : Type → Type} [Monad m] (write : Text → m (Except Text Unit)) (c : Call)
    (l : Link) : m (Except ActorFault Nat × Link) := do
  let (id, l) := l.take
  match l.register id with
  | .error why => return (.error why, l)
  | .ok l =>
    match ← write (requestLine id c) with
    | .ok () => return (.ok id, l)
    | .error reason => return (.error (.stdinClosed reason), l.withdraw id)

/-! ## Lemmas -/

theorem register_of_dead {l : Link} (h : l.dead.isSome) (id : Nat) :
    (l.register id).isOk = false := by
  obtain ⟨why, hw⟩ := Option.isSome_iff_exists.1 h
  unfold register
  split
  · rfl
  · simp [hw, Except.isOk, Except.toBool]

end Link

end XofConformance.Actor
