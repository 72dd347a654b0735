import XofConformance.Actor.Link

/-!
# Calls in flight

A client whose calls are on their way to an actor at the same time. A call that is handed over is
sent at once, and its results are delivered when they come; a checkpoint or draining waits for all
calls in flight. A call that is not answered while it is waited for has failed. The failure that
counts is that of the first call in the order in which they were handed over.
-/

namespace XofConformance.Actor

/-- A call on its way: its identifier if it was sent, what to do with its results, and what it came
to. -/
structure Flight (κ : Type) where
  call : Call
  id : Option Nat
  deliver : List Bytes → κ → Except Fault κ
  outcome : Option Outcome := none

/-- A link and the calls in flight over it. -/
structure Client (κ : Type) where
  state : κ
  link : Link := {}
  flights : List (Flight κ) := []
  /-- The failure that has not been raised by draining. -/
  error : Option Fault := none
  /-- Calls may be handed over. -/
  isOpen : Bool := true

/-- An answer as what a call came to. -/
def Answer.outcome (a : Answer) : Outcome :=
  match a with
  | .ok results => .ok results
  | .error why => .error (.subject (.actor why))

namespace Flight

variable {κ : Type}

/-- Lands a call: its results are counted and delivered. -/
def land (f : Flight κ) (o : Outcome) (state : κ) : Flight κ × κ :=
  match f.call.settle o with
  | .error fault => ({ f with outcome := some (.error fault) }, state)
  | .ok results =>
    match f.deliver results state with
    | .ok state => ({ f with outcome := some (.ok results) }, state)
    | .error fault => ({ f with outcome := some (.error fault.asFailure) }, state)

/-- The failure of a call. -/
def failure? (f : Flight κ) : Option Fault :=
  match f.outcome with
  | some (.error fault) => some fault
  | _ => none

/-- The call has not come to anything yet. -/
def isOpen (f : Flight κ) : Bool := f.outcome.isNone

/-- Lands the call with an identifier, if it is among those in flight. -/
def landIn (id : Nat) (a : Answer) : List (Flight κ) → κ → List (Flight κ) × κ
  | [], state => ([], state)
  | f :: rest, state =>
    if f.id = some id ∧ f.isOpen then
      let (f, state) := f.land (Answer.outcome a) state
      (f :: rest, state)
    else
      let (rest, state) := landIn id a rest state
      (f :: rest, state)

end Flight

namespace Client

variable {κ : Type} {m : Type → Type} [Monad m]

/-- The client after answers. -/
def land (answers : Answers) (c : Client κ) : Client κ :=
  answers.foldl (fun c a =>
    let (flights, state) := Flight.landIn a.1 a.2 c.flights c.state
    { c with flights, state }) c

/-- The client after a step of the listener. -/
def listen (step : Link → Link × Answers) (c : Client κ) : Client κ :=
  let (link, answers) := step c.link
  land answers { c with link }

/-- Sends a call. -/
def send (write : Text → m (Except Text Unit)) (call : Call)
    (deliver : List Bytes → κ → Except Fault κ) (c : Client κ) : m (Client κ) := do
  let (sent, link) ← c.link.submit write call
  let flight : Flight κ :=
    match sent with
    | .ok id => { call, id := some id, deliver }
    | .error why => { call, id := none, deliver, outcome := some (.error (.subject (.actor why))) }
  return { c with link, flights := c.flights ++ [flight] }

/-- Hands a call over, unless the client is closed. -/
def submit (write : Text → m (Except Text Unit)) (call : Call)
    (deliver : List Bytes → κ → Except Fault κ) (c : Client κ) :
    m (Except Fault Unit × Client κ) := do
  if c.isOpen then return (.ok (), ← c.send write call deliver)
  else return (.error (.defect .poolClosed), c)

/-- The time for answers is over: the calls that were not answered are withdrawn. -/
def expire (seconds : Binary64) (c : Client κ) : Client κ :=
  let late := c.flights.filter Flight.isOpen
  let silent (f : Flight κ) : Flight κ :=
    if f.isOpen then
      { f with outcome := some (.error (.subject (.actor (.silent f.call.op seconds)))) }
    else f
  { c with
    link := (late.filterMap (·.id)).foldl (fun l id => l.withdraw id) c.link
    flights := c.flights.map silent }

/-- Takes the call that was sent last out of flight, with what it came to. If it was not answered,
time runs out for all. -/
def finish (seconds : Binary64) (c : Client κ) : Outcome × Client κ :=
  let c := if c.flights.getLast?.any Flight.isOpen then c.expire seconds else c
  ((c.flights.getLast?.bind (·.outcome)).getD (.ok []), { c with flights := c.flights.dropLast })

/-- Waits for all calls in flight. -/
def join (seconds : Binary64) (c : Client κ) : Client κ :=
  let c := c.expire seconds
  { c with flights := [], error := c.error <|> c.flights.findSome? Flight.failure? }

/-- Waits for all calls in flight, and raises the failure that counts and keeps it. -/
def checkpoint (seconds : Binary64) (c : Client κ) : Except Fault Unit × Client κ :=
  let c := c.join seconds
  match c.error with
  | some f => (.error f, c)
  | none => (.ok (), c)

/-- Waits for all calls in flight, and raises the failure that counts and forgets it. -/
def drain (seconds : Binary64) (c : Client κ) : Except Fault Unit × Client κ :=
  let c := c.join seconds
  match c.error with
  | some f => (.error f, { c with error := none })
  | none => (.ok (), c)

/-- Waits for the calls in flight and takes no more. -/
def close (seconds : Binary64) (c : Client κ) : Client κ :=
  { c.expire seconds with isOpen := false }

end Client

end XofConformance.Actor
