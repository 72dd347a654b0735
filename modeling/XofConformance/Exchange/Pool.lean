import XofConformance.Exchange.Call

/-!
# The pool of calls

A call may be handed to the pool instead of being waited for; what is to happen with its results
goes with it. A worker takes the call up, waits for its answer and delivers its results, and
between these steps other workers may take theirs: the `Schedule` says who takes the turns. A
checkpoint waits until all calls handed over so far have ended and then acts; draining waits
without acting. The failure that counts is the first one in the order in which the calls were
released to the workers: a checkpoint raises it and keeps it, draining raises it once.
-/

namespace XofConformance

/-- How far a call handed to the pool has come. -/
inductive Progress
  | queued
  /-- It was put to the subject, which knows it by a ticket. -/
  | posted (ticket : Nat)
  /-- Its results are there, and the right number of them. -/
  | answered (results : List Bytes)
  /-- Nothing more happens: it failed, its results could not be delivered, or all is done. -/
  | ended (fault : Option Fault)

/-- A call handed to the pool: its number, what its results do to the client's state, and how far
it has come. -/
structure Job (κ : Type) where
  number : Nat
  call : Call
  deliver : List Bytes → κ → Except Fault κ
  progress : Progress := .queued

namespace Job

variable {κ : Type}

/-- Nothing more happens to the call. -/
def hasEnded (job : Job κ) : Bool :=
  match job.progress with
  | .ended _ => true
  | _ => false

/-- The failure that the call has ended with. -/
def fault? (job : Job κ) : Option Fault :=
  match job.progress with
  | .ended fault => fault
  | _ => none

end Job

/-- How the pool deals with the calls handed over: the order in which they are released to the
workers, whose turns are taken while the calls are waited for, as positions among the released
calls, and which calls are lost. What the turns leave undone is done in the order of release. -/
structure Schedule (κ : Type) where
  release : List (Job κ) → List (Job κ) := id
  turns : List (Job κ) → List Nat := fun _ => []
  lost : Nat → Bool := fun _ => false

/-- The state of a pool and of its client. -/
structure Pool (κ : Type) where
  client : κ
  /-- The number of calls handed over so far, lost ones included. -/
  submitted : Nat := 0
  /-- The calls handed over and not yet waited for. -/
  waiting : List (Job κ) := []
  /-- The failure that has not been raised by draining. -/
  error : Option Fault := none
  /-- Every step that a worker has taken, with the number of its call and what the call came to,
  latest first. -/
  history : List (Nat × Progress) := []

/-- The pool has nothing to do and nothing to tell. -/
def Pool.IsIdle {κ : Type} (p : Pool κ) : Prop := p.waiting = [] ∧ p.error = none

/-- What a client does with a pool and a subject. -/
abbrev Exchange (κ : Type) (m : Type → Type) := ExceptT Fault (StateT (Pool κ) m)

/-- The surroundings of an exchange. A subject may be given several calls before it answers the
first: a call is put to it under a ticket, and its answer is asked for by the ticket. A subject
that takes one call at a time does nothing until it is asked. -/
structure Setting (κ : Type) (m : Type → Type) [Monad m] where
  subject : Subject m
  schedule : Schedule κ := {}
  put : Call → m Nat := fun _ => pure 0
  answer : Nat → Subject m := fun _ => subject

namespace Setting

variable {κ : Type} {m : Type → Type} [Monad m]

/-! ## The workers -/

/-- The next step of the worker that has a call. -/
def advance (env : Setting κ m) (job : Job κ) (client : κ) : m (Progress × κ) :=
  match job.progress with
  | .queued => do return (.posted (← env.put job.call), client)
  | .posted ticket => do
    match job.call.settle (← env.answer ticket job.call) with
    | .ok results => return (.answered results, client)
    | .error f => return (.ended (some f), client)
  | .answered results =>
    match job.deliver results client with
    | .ok client => return (.ended none, client)
    | .error f => return (.ended (some f.asFailure), client)
  | .ended fault => return (.ended fault, client)

/-- A turn of the worker that has the call at a position, if that has not ended. -/
def turn (env : Setting κ m) (position : Nat) (p : Pool κ) : m (Pool κ) :=
  match p.waiting[position]? with
  | none => return p
  | some job =>
    if job.hasEnded then return p
    else do
      let (progress, client) ← env.advance job p.client
      return { p with
        client
        waiting := p.waiting.set position { job with progress }
        history := (job.number, progress) :: p.history }

/-- Turns one after the other. -/
def work (env : Setting κ m) : List Nat → Pool κ → m (Pool κ)
  | [], p => return p
  | position :: rest, p => do env.work rest (← env.turn position p)

/-- As many turns for each of a number of calls as a call takes from the first to the last. -/
def remainingTurns (count : Nat) : List Nat :=
  (List.range count).flatMap fun position => [position, position, position]

/-- The pool after all calls handed over have ended. -/
def settle (env : Setting κ m) (p : Pool κ) : m (Pool κ) := do
  let released := env.schedule.release p.waiting
  let turns := env.schedule.turns released ++ remainingTurns released.length
  let p ← env.work turns { p with waiting := released }
  return { p with waiting := [], error := p.error <|> p.waiting.findSome? Job.fault? }

/-! ## What a client may do -/

/-- Waits for all calls handed over. -/
def join (env : Setting κ m) : Exchange κ m Unit := do
  set (← liftM (env.settle (← get)))

/-- Asks the subject and waits for the answer. -/
def transact (env : Setting κ m) (c : Call) : Exchange κ m (List Bytes) := do
  liftExcept (← liftM (env.subject.ask c))
where
  liftExcept : Outcome → Exchange κ m (List Bytes)
    | .ok results => return results
    | .error f => throw f

/-- Hands a call to the pool. -/
def submit (env : Setting κ m) (c : Call) (deliver : List Bytes → κ → Except Fault κ) :
    Exchange κ m Unit :=
  modify fun p =>
    let job : Job κ := { number := p.submitted, call := c, deliver }
    { p with
      submitted := p.submitted + 1
      waiting := if env.schedule.lost p.submitted then p.waiting else p.waiting ++ [job] }

/-- Acts once all calls handed over so far have succeeded, or raises the failure that counts. -/
def checkpoint {α : Type} (env : Setting κ m) (action : Exchange κ m α) : Exchange κ m α := do
  env.join
  match (← get).error with
  | some f => throw f
  | none => action

/-- Waits for all calls handed over and raises the failure that counts, which is then forgotten. -/
def drain (env : Setting κ m) : Exchange κ m Unit := do
  env.join
  let p ← get
  set { p with error := none }
  match p.error with
  | some f => throw f
  | none => return

end Setting

end XofConformance
