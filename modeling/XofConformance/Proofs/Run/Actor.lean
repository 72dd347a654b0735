import XofConformance.Proofs.Actor.Progress
import XofConformance.Proofs.Actor.Wire
import XofConformance.Proofs.Run.Able
import XofConformance.Proofs.Run.Stateless

/-!
# Running a vector set over an actor

The subject is an actor at the other end of a link. A call that is put to it is one more caller,
and waiting for its answer lets all callers, the actor and the listener take their steps, those
included that have nothing to do with the vector set. Every caller comes to what the reply to its
own request makes of its call; so an actor that computes a function is as good as the function.

    Reached actor t → a caller of t ends as its own reply decides           (Traffic.delivers)
-/

namespace XofConformance.Actor

/-! ## What a reply makes of a call -/

/-- The outcome of the call is what the reply decides. -/
structure Decides (call : Call) (reply : Json) (o : Outcome) : Prop where
  exact : o = call.settle (Answer.outcome (answerOf reply))
  results {rs : List Bytes} :
    o = .ok rs ↔ Gives reply rs ∧ (rs.length : Int) = call.expected
  failure {f : Fault} : o = .error f → ∃ why, f = .subject why

theorem decides_settle (call : Call) (reply : Json) :
    Decides call reply (call.settle (Answer.outcome (answerOf reply))) :=
  ⟨rfl, settle_answerOf_eq_ok_iff, settle_outcome_error⟩

namespace Traffic

variable {actor : Behaviour} {t t' : Traffic} {i id : Nat} {c : Caller}

/-- A caller that has ended has what the actor's reply to its own request decides. -/
theorem Sound.decided (hactor : Replies actor) (h : t.Sound actor) (hc : c ∈ t.callers)
    {o : Outcome} (ho : c.outcome? = some o) :
    ∃ id line reply, c.stage.id? = some id ∧ ⟨⟨id, c.call⟩, line⟩ ∈ t.heard ∧
      actor (requestLine id c.call) line ∧ Json.read (Text.strip line) = .ok reply ∧
      Decides c.call reply o := by
  obtain ⟨id, a, hs, rfl⟩ := Caller.ended_of_outcome? ho
  have hp := h.placed c hc
  rw [Placed, hs] at hp
  obtain ⟨line, hl, rfl⟩ := hp
  have hsaid : actor (requestLine id c.call) line :=
    h.truthful ⟨⟨id, c.call⟩, line⟩ (List.mem_append_right _ hl)
  obtain ⟨reply, hread, -⟩ := hactor hsaid
  rw [answerIn_of_read hread]
  have hid : c.stage.id? = some id := by
    rw [hs]
    rfl
  exact ⟨id, line, reply, hid, hl, hsaid, hread, decides_settle c.call reply⟩

/-! ## The actor as a subject -/

/-- A call is put to the actor by one more caller; its place is the ticket. -/
def put (actor : Behaviour) (call : Call) : Rel Traffic Nat := fun t n t' =>
  ∃ s, Relation.ReflTransGen (Step actor) t s ∧ n = s.callers.length ∧ t' = s.enter call

/-- Everybody takes their steps until the caller at a place has ended. -/
def await (actor : Behaviour) (n : Nat) : Rel Traffic Outcome := fun t o t' =>
  Relation.ReflTransGen (Step actor) t t' ∧
    ∃ c id a, t'.callers[n]? = some c ∧ c.stage = .ended id a ∧ o = Answer.outcome a

end Traffic

/-- The surroundings of an actor at the other end of a link. -/
def overLink {κ : Type} (actor : Behaviour) (schedule : Schedule κ) : Setting κ (Rel Traffic) where
  subject call := do Traffic.await actor (← Traffic.put actor call)
  schedule := schedule
  put := Traffic.put actor
  answer n _ := Traffic.await actor n

/-- Whatever the actor replies to a call is what the function gives, up to the words of a
failure. -/
def Computes (actor : Behaviour) (f : Answering) : Prop :=
  ∀ {id : Nat} {call : Call} {line : Text}, actor (requestLine id call) line →
    (Answer.outcome (answerIn line)).toOption = (f call.op call.args).toOption

/-- What traffic tells of an actor that computes a function. -/
def Traffic.records (actor : Behaviour) (f : Answering) : Records Traffic where
  Sound t := t.Sound actor
  Posted t n call := ∃ c, t.callers[n]? = some c ∧ c.call = call
  Given _ call o := o.toOption = (f call.op call.args).toOption

namespace Traffic

variable {actor : Behaviour} {f : Answering} {t t' : Traffic} {n : Nat} {call : Call}
  {o : Outcome}

theorem steps_later (hactor : Replies actor) (h : t.Sound actor)
    (hs : Relation.ReflTransGen (Step actor) t t') : (records actor f).Later t t' where
  sound := h.steps hactor hs
  posted := fun ⟨c, hc, hcall⟩ => by
    obtain ⟨d, hd, hcall'⟩ := steps_call hs hc
    exact ⟨d, hd, hcall'.trans hcall⟩
  given := id

theorem put_posted (hactor : Replies actor) (h : t.Sound actor) (hput : put actor call t n t') :
    (records actor f).Later t t' ∧ (records actor f).Posted t' n call := by
  obtain ⟨s, hs, rfl, rfl⟩ := hput
  refine ⟨steps_later hactor h (hs.tail (.enter call)), ⟨{ call }, ?_, rfl⟩⟩
  exact List.getElem?_concat_length

theorem await_given (hactor : Replies actor) (hf : Computes actor f) (h : t.Sound actor)
    (hp : (records actor f).Posted t n call) (hawait : await actor n t o t') :
    (records actor f).Later t t' ∧ (records actor f).Given t' call o := by
  obtain ⟨hs, c, id, a, hc, hstage, rfl⟩ := hawait
  have hl : (records actor f).Later t t' := steps_later hactor h hs
  obtain ⟨d, hd, hcall⟩ := hl.posted hp
  rw [hc] at hd
  cases hd
  have hplaced := hl.sound.placed c (List.mem_of_getElem? hc)
  rw [Placed, hstage] at hplaced
  obtain ⟨line, hline, rfl⟩ := hplaced
  have hsaid := hf (hl.sound.truthful ⟨⟨id, c.call⟩, line⟩ (List.mem_append_right _ hline))
  rw [hcall] at hsaid
  exact ⟨hl, hsaid⟩

theorem exists_await (hactor : Replies actor) (htotal : Responsive actor) (h : t.Sound actor)
    (hp : (records actor f).Posted t n call) : ∃ o t', await actor n t o t' := by
  obtain ⟨t', hmoves, hrest⟩ := h.exists_rest hactor htotal
  have hs : Relation.ReflTransGen (Step actor) t t' := hmoves.lift id fun _ _ hm => .move hm
  obtain ⟨c, hc, -⟩ := (steps_later (f := f) hactor h hs).posted hp
  obtain ⟨o, ho⟩ := hrest c (List.mem_of_getElem? hc)
  obtain ⟨id, a, hstage, -⟩ := Caller.ended_of_outcome? ho
  exact ⟨_, t', hs, c, id, a, hc, hstage, rfl⟩

end Traffic

section

variable {κ : Type} {actor : Behaviour} {f : Answering}

/-- An actor that computes a function keeps up the records of the function. -/
def account (schedule : Schedule κ) (hactor : Replies actor) (hf : Computes actor f) :
    Account (overLink actor schedule) where
  toRecords := Traffic.records actor f
  put h hput := Traffic.put_posted hactor h hput
  answer h hp hawait := Traffic.await_given hactor hf h hp hawait
  ask h hask := by
    obtain ⟨n, s, hput, hawait⟩ := hask
    obtain ⟨hl, hp⟩ := Traffic.put_posted (f := f) hactor h hput
    obtain ⟨hl', hg⟩ := Traffic.await_given hactor hf hl.sound hp hawait
    exact ⟨hl.trans hl', hg⟩

theorem account_live (schedule : Schedule κ) (hactor : Replies actor) (hf : Computes actor f)
    (htotal : Responsive actor) : (account schedule hactor hf).Live where
  put call {t} _ := ⟨t.callers.length, t.enter call, t, .refl, rfl, rfl⟩
  answer h hp := Traffic.exists_await hactor htotal h hp
  ask call {t} h := by
    have hput : Traffic.put actor call t t.callers.length (t.enter call) := ⟨t, .refl, rfl, rfl⟩
    obtain ⟨hl, hp⟩ := Traffic.put_posted (f := f) hactor h hput
    obtain ⟨o, t', hawait⟩ := Traffic.exists_await hactor htotal hl.sound hp
    exact ⟨o, t', _, _, hput, hawait⟩

end

/-! ## Top theorem -/

/-- What callers are promised. -/
structure Traffic.Served (actor : Behaviour) (t : Traffic) : Prop where
  /-- Every identifier is one caller's. -/
  apart {i j id : Nat} {c d : Caller} : t.callers[i]? = some c → t.callers[j]? = some d →
    c.stage.id? = some id → d.stage.id? = some id → i = j
  /-- No identifier is written twice. -/
  once : (t.requests.map Request.id).Nodup
  /-- A caller that has ended has what the actor's reply to its own request decides. -/
  own {c : Caller} {o : Outcome} : c ∈ t.callers → c.outcome? = some o →
    ∃ id line reply, c.stage.id? = some id ∧ ⟨⟨id, c.call⟩, line⟩ ∈ t.heard ∧
      actor (requestLine id c.call) line ∧ Json.read (Text.strip line) = .ok reply ∧
      Decides c.call reply o
  /-- A move leaves less to do. -/
  shorter {t' : Traffic} : Move actor t t' → t'.effort < t.effort
  /-- When the actor has answered all it has received and nobody can move, all callers have
  ended. -/
  rest : t.inbox = [] → (∀ t', ¬ Move actor t t') → t.AtRest

/-- In whatever order callers, actor and listener take their steps, every caller comes to what the
reply to its own request decides. And a vector set that is run over an actor that computes a
function, whoever else uses the link, comes to an end, and to what it comes to with the function
itself. -/
theorem Traffic.serves {ε : Type} {actor : Behaviour} (hactor : Replies actor) {t : Traffic}
    (ht : Reached actor t) :
    t.Served actor ∧
    ∀ (f : Answering), Computes actor f → Responsive actor →
    ∀ (schedule schedule' : Schedule (Desk ε)), schedule.Faithful → schedule'.Faithful →
    (∀ n, schedule.lost n = false) → (∀ n, schedule'.lost n = false) →
    ∀ (vs : VectorSet) (algorithm : Text) (p p' : Pool (Desk ε)), p.IsIdle → p'.IsIdle →
      (∃ q v, Ends (vs.run (overLink actor schedule) algorithm) (p, t) q v) ∧
      ∀ q v, Ends (vs.run (overLink actor schedule) algorithm) (p, t) q v →
        q.toOption =
          (Id.run ((vs.run (.stateless f schedule') algorithm).run p')).1.toOption := by
  have hs := ht.sound hactor
  refine ⟨⟨hs.numbered.apart, hs.once, fun hc ho => hs.decided hactor hc ho,
    fun hm => hm.effort_lt, hs.ended_of_quiet⟩, ?_⟩
  intro f hf htotal schedule schedule' hrelease hrelease' hlost hlost' vs algorithm p p' hp hp'
  constructor
  · have hlive := account_live schedule hactor hf htotal
    have hholds : (account schedule hactor hf).Holds p t := Account.holds_of_idle hs hp.1
    obtain ⟨q, v, hrun, -⟩ := able_vectorSet hlive hrelease (p, t) hholds
    exact ⟨q, v, hrun⟩
  · rintro q ⟨p₁, t₁⟩ hrun
    have hrun' : Ends (vs.run (.stateless f schedule') algorithm) (p', ())
        (Id.run ((vs.run (.stateless f schedule') algorithm).run p')).1
        ((Id.run ((vs.run (.stateless f schedule') algorithm).run p')).2, ()) := rfl
    obtain ⟨-, -, hres⟩ :=
      ends_vectorSet (A := account schedule hactor hf) hrelease hp hs hrun
    obtain ⟨-, -, hres'⟩ :=
      ends_vectorSet (A := Account.stateless f schedule') hrelease' hp' trivial hrun'
    cases hprep : vs.prepare with
    | error e =>
      rw [hprep] at hres hres'
      rw [hres.1, hres'.1]
    | ok groups =>
      rw [hprep] at hres hres'
      refine hres.toOption_eq hres' ?_ (fun hg => ⟨_, hg, rfl⟩) hlost hlost'
      exact fun hg => ⟨_, rfl, hg.symm⟩

/-! ## An actor that answers everything in the same way -/

/-- The reply with a single zero byte, up to the digits of the identifier. -/
def zeroPrefix : Text := "\x7b\"ok\":true,\"result\":\x7b\"outputs\":[\"00\"]\x7d,\"id\":"

/-- The actor that answers every request with a single zero byte. -/
def zeros : Behaviour := fun request line =>
  line = zeroPrefix ++ ((request.drop 6).takeWhile Text.isDigit ++ [0x7D, 0x0A])

/-- A request begins with its identifier. -/
theorem drop_requestLine (id : Nat) (call : Call) :
    ∃ rest, (requestLine id call).drop 6 = Text.ofNat id ++ 0x2C :: rest := by
  unfold requestLine request Json.write
  rw [Json.writeAt, Json.writeFields]
  unfold Json.Style.enclose
  simp only [Json.writeFields, Text.concat, Text.join, List.isEmpty_cons, Bool.false_eq_true,
    if_false, List.intercalate, List.intersperse, List.flatten_cons, List.append_assoc]
  exact ⟨_, rfl⟩

theorem zeros_iff {id : Nat} {call : Call} {line : Text} :
    zeros (requestLine id call) line ↔ line = zeroPrefix ++ (Text.ofNat id ++ [0x7D, 0x0A]) := by
  obtain ⟨rest, hrest⟩ := drop_requestLine id call
  unfold zeros
  rw [hrest, Text.takeWhile_isDigit_ofNat]
  intro c hc
  cases hc
  decide

/-- The object in the reply to a request. -/
def zeroObject (id : Nat) : Json :=
  .object [("ok", .bool true), ("result", .object [("outputs", .array [.text "00"])]),
    ("id", .int id)]

theorem write_zeroObject (id : Nat) :
    Json.write Json.compact (zeroObject id) = zeroPrefix ++ (Text.ofNat id ++ [0x7D]) := by
  unfold Json.write zeroObject
  simp only [Json.writeAt, Json.writeFields, Json.writeItems, Json.Style.enclose, Json.int,
    List.isEmpty_cons, Bool.false_eq_true, if_false, Text.concat, Text.join, List.intercalate,
    List.intersperse, List.flatten_cons, List.flatten_nil, List.append_assoc, List.append_nil]
  rfl

theorem faithful_zeroObject (id : Nat) : Json.Faithful (zeroObject id) := by
  have hresult : Json.Faithful (.object [("outputs", .array (["00"].map .text))]) :=
    faithful_outputs (by decide)
  refine Json.faithful_object ["ok", "result", "id"] rfl (by decide) (by decide) ?_
  rw [List.forall_mem_cons, List.forall_mem_cons, List.forall_mem_singleton]
  exact ⟨Json.faithful_bool true, hresult, Json.faithful_int id⟩

theorem read_zeros (id : Nat) :
    Json.read (Text.strip (zeroPrefix ++ (Text.ofNat id ++ [0x7D, 0x0A]))) =
      .ok (zeroObject id) := by
  have hline : zeroPrefix ++ (Text.ofNat id ++ [0x7D, 0x0A]) =
      Json.write Json.compact (zeroObject id) ++ [0x0A] := by
    rw [write_zeroObject]
    simp
  have hbreak : ∀ c ∈ ([0x0A] : Text), Text.isBlank c = true := by decide
  rw [hline]
  exact (faithful_zeroObject id).read_strip Json.isBlank_compact hbreak

theorem replies_zeros : Replies zeros := by
  intro id call line h
  rw [zeros_iff.1 h]
  refine ⟨zeroObject id, read_zeros id, Json.sameKey_int_iff.2 ⟨.int id, rfl, rfl⟩⟩

theorem responsive_zeros : Responsive zeros := fun _ _ => ⟨_, zeros_iff.2 rfl⟩

theorem computes_zeros : Computes zeros fun _ _ => .ok [[0]] := by
  intro id call line h
  rw [zeros_iff.1 h, answerIn_of_read (read_zeros id)]
  rfl

/-- Two tests run over the actor that answers with zeros, next to another caller. -/
theorem Traffic.zeros_serves :
    let p : Pool (Desk Unit) := { client := { extra := () } }
    let t := Traffic.enter { op := "cSHAKE-128", expected := 1, args := [] } {}
    t.Served zeros ∧
      (∃ q v, Ends (VectorSet.twoTests.run (overLink zeros .alternating) "cSHAKE-128") (p, t) q v) ∧
      ∀ q v, Ends (VectorSet.twoTests.run (overLink zeros .alternating) "cSHAKE-128") (p, t) q v →
        q.toOption = some [{ tgId := .int 1, tests := [
          { tcId := .int 1, md := "00", outLen := .int 32 },
          { tcId := .int 2, md := "00" }] }] := by
  intro p t
  have ht : Reached zeros t := .single (.enter _)
  obtain ⟨hserved, hrun⟩ := Traffic.serves replies_zeros ht
  obtain ⟨hexists, hsame⟩ := hrun (fun _ _ => .ok [[0]]) computes_zeros responsive_zeros
    .alternating {} List.reverse_perm (fun _ => List.Perm.refl _) (fun _ => rfl) (fun _ => rfl)
    VectorSet.twoTests "cSHAKE-128" p p ⟨rfl, rfl⟩ ⟨rfl, rfl⟩
  refine ⟨hserved, hexists, fun q v hq => ?_⟩
  rw [hsame q v hq]
  decide +kernel

end XofConformance.Actor
