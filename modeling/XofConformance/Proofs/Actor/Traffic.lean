import Mathlib.Logic.Relation
import XofConformance.Proofs.Actor.Reply
import XofConformance.Proofs.Lists

/-!
# Traffic over a link

Callers with a request each, a link, and an actor at its other end, all of which take their steps
independently. A caller takes an identifier, registers it, writes its request and wakes up when its
answer is there; the actor answers any of the requests it has received; the listener hears what
the actor has written, line by line. What has been heard stays on record.

    what somebody can do next is a `Move`; a `Step` is a move, or one more caller enters
    t.effort moves at most can follow before somebody enters               (Move.effort_lt)
-/

namespace XofConformance.Actor

/-! ## States -/

/-- How far a caller has come. -/
inductive Stage
  | fresh
  | named (id : Nat)
  | registered (id : Nat)
  | written (id : Nat)
  | ended (id : Nat) (answer : Answer)

namespace Stage

/-- The identifier that the caller has taken. -/
def id? : Stage → Option Nat
  | .fresh => none
  | .named id | .registered id | .written id | .ended id _ => some id

/-- The identifier of the request that the caller has written. -/
def sent? : Stage → Option Nat
  | .written id | .ended id _ => some id
  | _ => none

/-- The answer that the caller has ended with. -/
def answer? : Stage → Option Answer
  | .ended _ a => some a
  | _ => none

/-- The steps that the caller, the actor and the listener may still take for the caller. -/
def effort : Stage → Nat
  | .fresh => 6
  | .named _ => 5
  | .registered _ => 4
  | .written _ => 1
  | .ended _ _ => 0

theorem id?_of_sent? {s : Stage} {id : Nat} (h : s.sent? = some id) : s.id? = some id := by
  cases s with
  | written n => exact h
  | ended n a => exact h
  | _ => cases h

end Stage

/-- A caller and the call it makes. -/
structure Caller where
  call : Call
  stage : Stage := .fresh

namespace Caller

/-- The caller at another stage. -/
def at_ (c : Caller) (stage : Stage) : Caller := { c with stage }

/-- What the call of the caller has come to. -/
def outcome? (c : Caller) : Option Outcome :=
  c.stage.answer?.map fun a => c.call.settle (Answer.outcome a)

theorem outcome?_of_ended {c : Caller} {id : Nat} {a : Answer}
    (hs : c.stage = .ended id a) :
    c.outcome? = some (c.call.settle (Answer.outcome a)) := by
  unfold outcome?
  rw [hs]
  rfl

theorem ended_of_outcome? {c : Caller} {o : Outcome} (h : c.outcome? = some o) :
    ∃ id a, c.stage = .ended id a ∧ o = c.call.settle (Answer.outcome a) := by
  unfold outcome? at h
  cases hs : c.stage with
  | ended id a =>
    rw [hs] at h
    cases h
    exact ⟨id, a, rfl, rfl⟩
  | _ =>
    rw [hs] at h
    cases h

end Caller

/-- A request that was written to the actor. -/
structure Request where
  id : Nat
  call : Call

/-- A line with which the actor has replied to a request. -/
structure Reply where
  request : Request
  line : Text

/-- The callers, the link, and what is under way between the link and the actor. -/
structure Traffic where
  link : Link := {}
  callers : List Caller := []
  /-- What the actor has received and not answered. -/
  inbox : List Request := []
  /-- What the actor has written and nobody has heard. -/
  outbox : List Reply := []
  /-- What was heard, in the order in which it was. -/
  heard : List Reply := []
  /-- The answers that are there for the callers. -/
  answers : Answers := []

/-- What an actor may reply to a line, whatever it has received and written before. -/
abbrev Behaviour := Text → Text → Prop

/-- Every reply of the actor names the request that it replies to. -/
def Replies (actor : Behaviour) : Prop :=
  ∀ {id : Nat} {call : Call} {line : Text}, actor (requestLine id call) line → RepliesTo id line

/-- The actor has a reply to every request. -/
def Responsive (actor : Behaviour) : Prop :=
  ∀ (id : Nat) (call : Call), ∃ line, actor (requestLine id call) line

namespace Traffic

variable {actor : Behaviour} {t t' : Traffic} {i id : Nat} {c : Caller}

/-- All requests that were ever written. -/
def requests (t : Traffic) : List Request :=
  t.inbox ++ t.outbox.map Reply.request ++ t.heard.map Reply.request

/-- The traffic with one more caller. -/
def enter (call : Call) (t : Traffic) : Traffic := { t with callers := t.callers ++ [{ call }] }

/-- A step of those that are there. -/
inductive Move (actor : Behaviour) : Traffic → Traffic → Prop
  | take {t : Traffic} {i : Nat} {c : Caller} : t.callers[i]? = some c → c.stage = .fresh →
      Move actor t
        { t with
          link := t.link.take.2
          callers := t.callers.set i (c.at_ (.named t.link.take.1)) }
  | register {t : Traffic} {i id : Nat} {c : Caller} {link : Link} : t.callers[i]? = some c →
      c.stage = .named id → t.link.register id = .ok link →
      Move actor t { t with link, callers := t.callers.set i (c.at_ (.registered id)) }
  | refused {t : Traffic} {i id : Nat} {c : Caller} {why : ActorFault} : t.callers[i]? = some c →
      c.stage = .named id → t.link.register id = .error why →
      Move actor t { t with callers := t.callers.set i (c.at_ (.ended id (.error why))) }
  | write {t : Traffic} {i id : Nat} {c : Caller} : t.callers[i]? = some c →
      c.stage = .registered id →
      Move actor t
        { t with
          callers := t.callers.set i (c.at_ (.written id))
          inbox := t.inbox ++ [{ id, call := c.call }] }
  | answer {t : Traffic} {before after : List Request} {r : Request} {line : Text} :
      t.inbox = before ++ r :: after → actor (requestLine r.id r.call) line →
      Move actor t
        { t with inbox := before ++ after, outbox := t.outbox ++ [{ request := r, line }] }
  | hear {t : Traffic} {r : Reply} {rest : List Reply} : t.outbox = r :: rest →
      Move actor t
        { t with
          link := (t.link.hear r.line).1
          outbox := rest
          heard := t.heard ++ [r]
          answers := t.answers ++ (t.link.hear r.line).2 }
  | wake {t : Traffic} {i id : Nat} {c : Caller} {a : Answer} : t.callers[i]? = some c →
      c.stage = .written id → t.answers.lookup id = some a →
      Move actor t { t with callers := t.callers.set i (c.at_ (.ended id a)) }

/-- A step of those that are there, or somebody enters. -/
inductive Step (actor : Behaviour) : Traffic → Traffic → Prop
  | move {t t' : Traffic} : Move actor t t' → Step actor t t'
  | enter {t : Traffic} (call : Call) : Step actor t (t.enter call)

/-- The traffic that can come about. -/
def Reached (actor : Behaviour) (t : Traffic) : Prop :=
  Relation.ReflTransGen (Step actor) {} t

/-! ## What a step leaves as it is -/

/-- Callers stay where they are and keep their calls. -/
theorem Move.call (h : Move actor t t') (hi : t.callers[i]? = some c) :
    ∃ d, t'.callers[i]? = some d ∧ d.call = c.call := by
  have hset : ∀ {j : Nat} {e : Caller} {stage : Stage}, t.callers[j]? = some e →
      ∃ d, (t.callers.set j (e.at_ stage))[i]? = some d ∧ d.call = c.call := by
    intro j e stage hj
    by_cases hji : j = i
    · subst hji
      rw [hi] at hj
      cases hj
      obtain ⟨hlt, -⟩ := List.getElem?_eq_some_iff.1 hi
      exact ⟨c.at_ stage, List.getElem?_set_self hlt, rfl⟩
    · exact ⟨c, by rw [List.getElem?_set_ne hji, hi], rfl⟩
  cases h with
  | take hj _ => exact hset hj
  | register hj _ _ => exact hset hj
  | refused hj _ _ => exact hset hj
  | write hj _ => exact hset hj
  | answer _ _ => exact ⟨c, hi, rfl⟩
  | hear _ => exact ⟨c, hi, rfl⟩
  | wake hj _ _ => exact hset hj

theorem Step.call (h : Step actor t t') (hi : t.callers[i]? = some c) :
    ∃ d, t'.callers[i]? = some d ∧ d.call = c.call := by
  cases h with
  | move hm => exact hm.call hi
  | enter call =>
    obtain ⟨hlt, -⟩ := List.getElem?_eq_some_iff.1 hi
    exact ⟨c, (List.getElem?_append_left hlt).trans hi, rfl⟩

theorem steps_call (h : Relation.ReflTransGen (Step actor) t t') (hi : t.callers[i]? = some c) :
    ∃ d, t'.callers[i]? = some d ∧ d.call = c.call := by
  induction h with
  | refl => exact ⟨c, hi, rfl⟩
  | tail _ hstep ih =>
    obtain ⟨d, hd, hcall⟩ := ih
    obtain ⟨e, he, hcall'⟩ := hstep.call hd
    exact ⟨e, he, hcall'.trans hcall⟩

/-! ## How long traffic goes on -/

/-- The steps that may still be taken for those that are there. -/
def effort (t : Traffic) : Nat :=
  (t.callers.map fun c => c.stage.effort).sum + 2 * t.inbox.length + t.outbox.length

/-- What the callers have to do after one of them has gone from one stage to another. -/
theorem effort_set {callers : List Caller} {before : Stage} (after : Stage)
    (hi : callers[i]? = some c) (hs : c.stage = before) :
    ((callers.set i (c.at_ after)).map fun c => c.stage.effort).sum + before.effort =
      (callers.map fun c => c.stage.effort).sum + after.effort := by
  subst hs
  exact sum_map_set hi

/-- A move leaves less to do. -/
theorem Move.effort_lt (h : Move actor t t') : t'.effort < t.effort := by
  unfold effort
  cases h with
  | take hi hs =>
    have hsum : _ + 6 = _ + 5 := effort_set (.named t.link.take.1) hi hs
    show ((t.callers.set _ _).map _).sum + 2 * t.inbox.length + t.outbox.length < _
    omega
  | @register _ id _ _ hi hs _ =>
    have hsum : _ + 5 = _ + 4 := effort_set (.registered id) hi hs
    show ((t.callers.set _ _).map _).sum + 2 * t.inbox.length + t.outbox.length < _
    omega
  | @refused _ id _ why hi hs _ =>
    have hsum : _ + 5 = _ + 0 := effort_set (.ended id (.error why)) hi hs
    show ((t.callers.set _ _).map _).sum + 2 * t.inbox.length + t.outbox.length < _
    omega
  | @write _ id _ hi hs =>
    have hsum : _ + 4 = _ + 1 := effort_set (.written id) hi hs
    simp only [List.length_append, List.length_singleton]
    omega
  | answer hb _ =>
    simp only [hb, List.length_append, List.length_cons, List.length_nil]
    omega
  | hear hb =>
    simp only [hb, List.length_cons]
    omega
  | @wake _ id _ a hi hs _ =>
    have hsum : _ + 1 = _ + 0 := effort_set (.ended id a) hi hs
    show ((t.callers.set _ _).map _).sum + 2 * t.inbox.length + t.outbox.length < _
    omega

end Traffic

end XofConformance.Actor
