import Mathlib.Logic.Function.Basic
import Mathlib.Logic.Relation
import XofConformance.Proofs.Actor.Notice

/-!
# The switchboard

Callers and the listener of a link, step by step. A caller takes an identifier, registers it, and
writes its request; it withdraws what it could not write, wakes up when its answer is there, and
gives a request up when the time has run out. The listener takes a request out of those that wait
and hands over its answer later, and it marks the link dead before it hands over the failures one by
one. Between any two of these steps everybody else may take theirs, and the actor writes what it
likes. If that is bytes and no text, the listener stops at once and hands over nothing: the link is
not dead, but nobody hears the actor any more. `Json.read` has no limits on nesting or on the number
of digits; a reader that has them ends the listening at a line beyond them, by the same step.

    the listener left alone does what `Link.hear` and `Link.hangUp` do  (hear_alone, hangUp_alone)
    a caller left alone does what `Link.submit` does                         (submit_alone)
-/

namespace XofConformance.Actor

/-! ## States -/

/-- How far the caller of a request has come. -/
inductive Stand
  /-- Nobody has taken the identifier. -/
  | absent
  | named
  | refused (why : ActorFault)
  | registered
  /-- The request could not be written, and is not withdrawn yet. -/
  | unwritten (reason : Text)
  | withdrawn (reason : Text)
  | written
  /-- The time has run out, and the request is not given up yet. -/
  | late
  | expired
  | told (a : Answer)

namespace Stand

/-- The request was registered, and its caller goes on with it. -/
def isOpen : Stand → Bool
  | .registered | .unwritten _ | .written | .late => true
  | _ => false

/-- The request was registered at some time. -/
def hasRegistered : Stand → Bool
  | .absent | .named | .refused _ => false
  | _ => true

/-- The request was registered, and its caller has given it up. -/
def isGivenUp : Stand → Bool
  | .withdrawn _ | .expired => true
  | _ => false

/-- What the call has come to, if it has ended. -/
def outcome? (silent : ActorFault) : Stand → Option Answer
  | .refused why => some (.error why)
  | .withdrawn reason => some (.error (.stdinClosed reason))
  | .expired => some (.error silent)
  | .told a => some a
  | _ => none

theorem hasRegistered_of_isOpen {s : Stand} (h : s.isOpen = true) : s.hasRegistered = true := by
  cases s <;> first | rfl | cases h

theorem hasRegistered_of_isGivenUp {s : Stand} (h : s.isGivenUp = true) :
    s.hasRegistered = true := by
  cases s <;> first | rfl | cases h

theorem isOpen_of_isGivenUp {s : Stand} (h : s.isGivenUp = true) : s.isOpen = false := by
  cases s <;> first | rfl | cases h

theorem isGivenUp_of_isOpen {s : Stand} (h : s.isOpen = true) : s.isGivenUp = false := by
  cases s <;> first | rfl | cases h

end Stand

/-- What the listener is about to do. -/
inductive Listener
  | ready
  /-- It has taken a request out, and has its answer in hand. -/
  | delivering (id : Nat) (a : Answer)
  /-- It has met what is the death of the link. -/
  | doomed (why : ActorFault)
  /-- It has marked the link dead, and has requests in hand that are to fail. -/
  | failing (why : ActorFault) (ids : List Nat)
  | stopped

/-- The listener has not marked the link dead, and has not stopped. -/
def Listener.isAtWork : Listener → Bool
  | .ready | .delivering _ _ | .doomed _ => true
  | _ => false

/-- The answers that the listener has in hand. -/
def Listener.due : Listener → Answers
  | .delivering id a => [(id, a)]
  | .failing why ids => ids.map fun id => (id, .error why)
  | _ => []

/-- A link with its callers and its listener. -/
structure Switchboard where
  link : Link := {}
  listener : Listener := .ready
  /-- The callers, by the identifiers of their requests. -/
  stand : Nat → Stand := fun _ => .absent
  /-- The lines that were heard, in their order. -/
  heard : List Text := []
  /-- The answers that are there for the callers, in the order in which they were handed over. -/
  done : Answers := []

namespace Switchboard

/-- All answers that were handed over, or that the listener has in hand. -/
def given (t : Switchboard) : Answers := t.done ++ t.listener.due

/-- The switchboard with one caller at another place. -/
def put (id : Nat) (s : Stand) (t : Switchboard) : Switchboard :=
  { t with stand := Function.update t.stand id s }

/-! ## Steps -/

/-- What the listener does about a line at once. -/
def heed (t : Switchboard) : Notice → Switchboard
  | .blank => t
  | .answer id a => { t with link := t.link.withdraw id, listener := .delivering id a }
  | .doom why => { t with listener := .doomed why }
  | .keyless => { t with link := t.link.deafen, listener := .stopped }

/-- The listener hears a line. -/
def hear (line : Text) (t : Switchboard) : Switchboard :=
  { t with heard := t.heard ++ [line] }.heed (t.link.notice line)

/-- The listener meets bytes that are no text. -/
def deafen (t : Switchboard) : Switchboard :=
  { t with link := t.link.deafen, listener := .stopped }

/-- What a caller can do next. -/
inductive CallerStep : Switchboard → Switchboard → Prop
  | enter {t : Switchboard} :
    CallerStep t ({ t with link := t.link.take.2 }.put t.link.take.1 .named)
  | register {t : Switchboard} {n : Nat} {l : Link} : t.stand n = .named →
    t.link.register n = .ok l → CallerStep t ({ t with link := l }.put n .registered)
  | refuse {t : Switchboard} {n : Nat} {why : ActorFault} : t.stand n = .named →
    t.link.register n = .error why → CallerStep t (t.put n (.refused why))
  | write {t : Switchboard} {n : Nat} : t.stand n = .registered →
    CallerStep t (t.put n .written)
  | fail {t : Switchboard} {n : Nat} {reason : Text} : t.stand n = .registered →
    CallerStep t (t.put n (.unwritten reason))
  | withdraw {t : Switchboard} {n : Nat} {reason : Text} : t.stand n = .unwritten reason →
    CallerStep t ({ t with link := t.link.withdraw n }.put n (.withdrawn reason))
  | wake {t : Switchboard} {n : Nat} {a : Answer} : t.stand n = .written →
    t.done.lookup n = some a → CallerStep t (t.put n (.told a))
  | timeOut {t : Switchboard} {n : Nat} : t.stand n = .written → t.done.lookup n = none →
    CallerStep t (t.put n .late)
  | expire {t : Switchboard} {n : Nat} : t.stand n = .late →
    CallerStep t ({ t with link := t.link.withdraw n }.put n .expired)

/-- What the listener can do next. -/
inductive ListenerStep : Switchboard → Switchboard → Prop
  | hear {t : Switchboard} {line : Text} : t.listener = .ready → ListenerStep t (t.hear line)
  | deafen {t : Switchboard} : t.listener = .ready → ListenerStep t t.deafen
  | hangUp {t : Switchboard} {code : Option Int} : t.listener = .ready →
    ListenerStep t { t with listener := .doomed (.terminated code) }
  | deliver {t : Switchboard} {id : Nat} {a : Answer} : t.listener = .delivering id a →
    ListenerStep t { t with listener := .ready, done := t.done ++ [(id, a)] }
  | die {t : Switchboard} {why : ActorFault} : t.listener = .doomed why →
    ListenerStep t
      { t with link := (t.link.die why).1, listener := .failing why t.link.waiting }
  | fail {t : Switchboard} {why : ActorFault} {id : Nat} {rest : List Nat} :
    t.listener = .failing why (id :: rest) →
    ListenerStep t
      { t with listener := .failing why rest, done := t.done ++ [(id, .error why)] }
  | stop {t : Switchboard} {why : ActorFault} : t.listener = .failing why [] →
    ListenerStep t { t with listener := .stopped }

/-- What can happen next. -/
inductive Step (t t' : Switchboard) : Prop
  | caller : CallerStep t t' → Step t t'
  | listener : ListenerStep t t' → Step t t'

/-- The second switchboard can come about after the first, whoever takes the steps. -/
def Later : Switchboard → Switchboard → Prop := Relation.ReflTransGen Step

/-- The switchboard can come about over a new link. -/
def Reached (t : Switchboard) : Prop := Later {} t

/-! ## Left alone -/

variable {t : Switchboard} {line : Text} {why : ActorFault}

/-- The listener hands over the failures that it has in hand, and stops. -/
theorem fails_alone {ids : List Nat} (h : t.listener = .failing why ids) :
    Relation.ReflTransGen ListenerStep t
      { t with listener := .stopped, done := t.done ++ ids.map fun id => (id, .error why) } := by
  induction ids generalizing t with
  | nil =>
    rw [List.map_nil, List.append_nil]
    exact .single (.stop h)
  | cons id rest ih =>
    refine .head (.fail h) ?_
    have hrest := ih (t := { t with
      listener := .failing why rest, done := t.done ++ [(id, .error why)] }) rfl
    rwa [List.append_assoc] at hrest

/-- A listener that has met the death of the link marks it, fails all requests that wait, and
stops. -/
theorem dies_alone (h : t.listener = .doomed why) :
    Relation.ReflTransGen ListenerStep t
      { t with
        link := (t.link.die why).1
        listener := .stopped
        done := t.done ++ (t.link.die why).2 } :=
  .head (.die h) (fails_alone (t := { t with
    link := (t.link.die why).1, listener := .failing why t.link.waiting }) rfl)

/-- A listener that is left alone does with a line what the link does. -/
theorem hear_alone (hready : t.listener = .ready) (hl : t.link.listening = true) :
    ∃ next, (next = .ready ∨ next = .stopped) ∧ Relation.ReflTransGen ListenerStep t
      { t with
        link := (t.link.hear line).1
        listener := next
        heard := t.heard ++ [line]
        done := t.done ++ (t.link.hear line).2 } := by
  have hstep : ListenerStep t (t.hear line) := .hear hready
  unfold hear at hstep
  rw [Link.hear_eq_heed hl]
  cases hn : t.link.notice line with
  | blank =>
    rw [hn] at hstep
    refine ⟨.ready, Or.inl rfl, .single ?_⟩
    simpa only [heed, Link.heed, List.append_nil, hready] using hstep
  | answer id a =>
    rw [hn] at hstep
    exact ⟨.ready, Or.inl rfl, .head hstep (.single (.deliver rfl))⟩
  | doom why =>
    rw [hn] at hstep
    exact ⟨.stopped, Or.inr rfl, .head hstep (dies_alone rfl)⟩
  | keyless =>
    rw [hn] at hstep
    refine ⟨.stopped, Or.inr rfl, .single ?_⟩
    simpa only [heed, Link.heed, List.append_nil] using hstep

theorem hangUp_alone (hready : t.listener = .ready) (hl : t.link.listening = true)
    (code : Option Int) :
    Relation.ReflTransGen ListenerStep t
      { t with
        link := (t.link.hangUp code).1
        listener := .stopped
        done := t.done ++ (t.link.hangUp code).2 } := by
  have hdies : t.link.hangUp code = t.link.die (.terminated code) := by
    unfold Link.hangUp
    rw [if_pos hl]
  rw [hdies]
  exact .head (.hangUp hready) (dies_alone rfl)

theorem put_put {id : Nat} {s s' : Stand} : (t.put id s).put id s' = t.put id s' := by
  unfold put
  rw [Function.update_idem]

theorem stand_put {id : Nat} {s : Stand} : (t.put id s).stand id = s := Function.update_self ..

theorem stand_put_of_ne {id n : Nat} {s : Stand} (h : n ≠ id) :
    (t.put id s).stand n = t.stand n := Function.update_of_ne h ..

/-- What submitting a request comes to, if writing it comes to `r`. -/
theorem submit_eq (l : Link) (c : Call) (r : Except Text Unit) :
    Id.run (l.submit (fun _ => pure r) c) =
      match l.take.2.register l.take.1 with
      | .error why => (.error why, l.take.2)
      | .ok l' =>
        match r with
        | .ok () => (.ok l.take.1, l')
        | .error reason => (.error (.stdinClosed reason), l'.withdraw l.take.1) := by
  unfold Link.submit
  show Id.run (match l.take.2.register l.take.1 with | .error why => _ | .ok l' => _) = _
  cases l.take.2.register l.take.1 with
  | error why => rfl
  | ok l' => cases r <;> rfl

/-- A caller that is left alone submits its request as the link does, whatever comes of writing
it. -/
theorem submit_alone (silent : ActorFault) (c : Call) (r : Except Text Unit) :
    let sent := Id.run (t.link.submit (fun _ => pure r) c)
    ∃ s, Relation.ReflTransGen CallerStep t
        ({ t with link := sent.2 }.put t.link.take.1 s) ∧
      match sent.1 with
      | .ok id => id = t.link.take.1 ∧ s = .written
      | .error why => s.outcome? silent = some (.error why) := by
  intro sent
  have hsent : sent = _ := submit_eq t.link c r
  have henter : CallerStep t ({ t with link := t.link.take.2 }.put t.link.take.1 .named) := .enter
  cases hreg : t.link.take.2.register t.link.take.1 with
  | error why =>
    rw [hreg] at hsent
    rw [hsent]
    have hrefuse := CallerStep.refuse
      (t := { t with link := t.link.take.2 }.put t.link.take.1 .named) stand_put hreg
    rw [put_put] at hrefuse
    exact ⟨.refused why, .head henter (.single hrefuse), rfl⟩
  | ok l =>
    rw [hreg] at hsent
    have hregister : CallerStep ({ t with link := t.link.take.2 }.put t.link.take.1 .named)
        (({ t with link := l }.put t.link.take.1 .named).put t.link.take.1 .registered) :=
      .register stand_put hreg
    rw [put_put] at hregister
    have hregistered := Relation.ReflTransGen.head henter (.single hregister)
    cases r with
    | ok u =>
      rw [hsent]
      have hwrite := CallerStep.write (t := { t with link := l }.put t.link.take.1 .registered)
        stand_put
      rw [put_put] at hwrite
      exact ⟨.written, hregistered.tail hwrite, rfl, rfl⟩
    | error reason =>
      rw [hsent]
      have hfail := @CallerStep.fail ({ t with link := l }.put t.link.take.1 .registered)
        t.link.take.1 reason stand_put
      rw [put_put] at hfail
      have hwithdraw : CallerStep ({ t with link := l }.put t.link.take.1 (.unwritten reason))
          (({ t with link := l.withdraw t.link.take.1 }.put t.link.take.1
            (.unwritten reason)).put t.link.take.1 (.withdrawn reason)) :=
        .withdraw stand_put
      rw [put_put] at hwithdraw
      exact ⟨.withdrawn reason, (hregistered.tail hfail).tail hwithdraw, rfl⟩

end Switchboard

end XofConformance.Actor
