import XofConformance.Proofs.Actor.Bookkeeping

/-!
# Order at the switchboard

What the bookkeeping comes to for those who use the link. Once the listener has met the death of the
link, every request that waits fails with its cause, and with nothing else; a caller that gives its
request up in time does not learn it. And once the link is dead, it stays dead, nobody waits, and
every request that comes later is refused with the same cause.

A line that is no JSON, a reply to no request that waits and the end of what the actor writes are
such a death. Bytes that are no text are none, and neither is a reply that names what can be no key
while requests wait: the listener stops, the link is not dead, and whoever waits or comes later
waits until its time has run out.

    t.listener = .doomed why → t.Fails why                                   (Kept.fails)
    t.Deaf → Later t t' → t'.Deaf ∧ t'.done = t.done                          (Deaf.later)
    Reached t → t.Orderly                                                  (Reached.orderly)
-/

namespace XofConformance.Actor

namespace Switchboard

variable {t t' : Switchboard} {id : Nat} {why : ActorFault} {ids : List Nat}

/-! ## Falling -/

/-- A listener that has met the death of the link can only mark it. -/
theorem eq_of_doomed (hdoomed : t.listener = .doomed why) (hstep : ListenerStep t t') :
    t' = { t with link := (t.link.die why).1, listener := .failing why t.link.waiting } := by
  cases hstep with
  | @die why' h =>
    rw [hdoomed] at h
    cases h
    rfl
  | hear h | deafen h | hangUp h | deliver h | fail h | stop h =>
    rw [hdoomed] at h
    cases h

/-- A listener that is not at work any more does not take it up again. -/
theorem isAtWork_step (hidle : t.listener.isAtWork = false) (hstep : ListenerStep t t') :
    t'.listener.isAtWork = false := by
  cases hstep with
  | fail => rfl
  | stop => rfl
  | die => rfl
  | deafen => rfl
  | hear h | hangUp h | deliver h =>
    rw [h] at hidle
    cases hidle

/-- What has become of a request that waited when the listener met the death of the link: it still
waits for that, or it has failed with the cause, or its caller has given it up before. -/
def Fares (why : ActorFault) (id : Nat) (t : Switchboard) : Prop :=
  (t.listener = .doomed why ∧ id ∈ t.link.waiting) ∨ (id, .error why) ∈ t.given ∨
    ((t.stand id).isGivenUp = true ∧ id ∉ t.given.map Prod.fst)

/-- The link is about to die, or is dead, of a cause that is to be that of all requests in a
list. -/
structure Falls (why : ActorFault) (ids : List Nat) (t : Switchboard) : Prop where
  listener : t.listener = .doomed why ∨ (t.link.dead = some why ∧ t.listener.isAtWork = false)
  fares : ∀ id ∈ ids, t.Fares why id

/-- A request that is given up is not taken any more. -/
theorem Kept.not_given_of_takes {as : Answers} (hk : t.Kept) (ht : t.Takes t' as)
    (hup : (t.stand id).isGivenUp = true) (hnone : id ∉ t.given.map Prod.fst) :
    id ∉ t'.given.map Prod.fst := by
  rw [ht.given, List.map_append, List.mem_append, not_or]
  refine ⟨hnone, fun hid => ?_⟩
  have hopen := (hk.waiting.1 (ht.taken hid)).1
  rw [Stand.isOpen_of_isGivenUp hup] at hopen
  cases hopen

theorem Falls.callerStep (h : t.Falls why ids) (hk : t.Kept) (hstep : CallerStep t t') :
    t'.Falls why ids := by
  obtain ⟨n, l, s, rfl, hm⟩ := hk.exists_moves hstep
  refine ⟨h.listener.imp_right fun hd => ⟨hm.dead.trans hd.1, hd.2⟩, fun id hid => ?_⟩
  rcases h.fares id hid with ⟨hdoomed, hwait⟩ | hfailed | ⟨hup, hnone⟩
  · rcases hk.waits_or_up hm hwait with hwait' | hup
    · exact Or.inl ⟨hdoomed, hwait'⟩
    · exact Or.inr (Or.inr ⟨hup, (hk.waiting.1 hwait).2⟩)
  · exact Or.inr (Or.inl hfailed)
  · refine Or.inr (Or.inr ⟨?_, hnone⟩)
    rwa [hm.stand_of_isGivenUp hup]

theorem Falls.listenerStep (h : t.Falls why ids) (hk : t.Kept) (hstep : ListenerStep t t') :
    t'.Falls why ids := by
  obtain ⟨as, ht⟩ := hk.exists_takes hstep
  have hstill : ∀ {p : Nat × Answer}, p ∈ t.given → p ∈ t'.given := fun hp => by
    rw [ht.given]
    exact List.mem_append_left _ hp
  refine ⟨Or.inr ?_, fun id hid => ?_⟩
  · rcases h.listener with hdoomed | ⟨hdead, hidle⟩
    · rw [eq_of_doomed hdoomed hstep]
      exact ⟨rfl, rfl⟩
    · exact ⟨ht.dead hdead, isAtWork_step hidle hstep⟩
  · rcases h.fares id hid with ⟨hdoomed, hwait⟩ | hfailed | ⟨hup, hnone⟩
    · -- the link is marked dead, and the listener has the failure of the request in hand
      refine Or.inr (Or.inl ?_)
      rw [eq_of_doomed hdoomed hstep, (hk.takes_all hdoomed).given]
      exact List.mem_append_right _ (Link.mem_die.2 ⟨hwait, rfl⟩)
    · exact Or.inr (Or.inl (hstill hfailed))
    · refine Or.inr (Or.inr ⟨?_, hk.not_given_of_takes ht hup hnone⟩)
      rwa [ht.stand]

theorem Falls.later (h : t.Falls why ids) (hk : t.Kept) (hlater : Later t t') :
    t'.Falls why ids := by
  induction hlater with
  | refl => exact h
  | tail hlater hstep ih =>
    cases hstep with
    | caller hc => exact ih.callerStep (hk.later hlater) hc
    | listener hl => exact ih.listenerStep (hk.later hlater) hl

theorem Kept.answer_unique (hk : t.Kept) {a b : Answer} (ha : (id, a) ∈ t.given)
    (hb : (id, b) ∈ t.given) : a = b :=
  congrArg Prod.snd (List.inj_on_of_nodup_map hk.once ha hb rfl)

/-- A request that falls with the link is given no other answer than the cause. -/
theorem Falls.only (h : t.Falls why ids) (hk : t.Kept) (hid : id ∈ ids) {a : Answer}
    (ha : (id, a) ∈ t.given) : a = .error why := by
  have hgiven : id ∈ t.given.map Prod.fst := List.mem_map.2 ⟨_, ha, rfl⟩
  rcases h.fares id hid with ⟨-, hwait⟩ | hfailed | ⟨-, hnone⟩
  · exact absurd hgiven (hk.waiting.1 hwait).2
  · exact hk.answer_unique ha hfailed
  · exact absurd hgiven hnone

/-- When the listener has stopped, the requests that fall have failed, or were given up. -/
theorem Falls.stopped (h : t.Falls why ids) (hstopped : t.listener = .stopped) :
    t.link.dead = some why ∧
      ∀ id ∈ ids, (id, .error why) ∈ t.done ∨ (t.stand id).isGivenUp = true := by
  have hover : t.listener ≠ .doomed why := by
    rw [hstopped]
    exact nofun
  have hdone : t.given = t.done := given_eq_done (by rw [hstopped]; rfl)
  refine ⟨(h.listener.resolve_left hover).1, fun id hid => ?_⟩
  rcases h.fares id hid with ⟨hdoomed, -⟩ | hfailed | ⟨hup, -⟩
  · exact absurd hdoomed hover
  · rw [hdone] at hfailed
    exact Or.inl hfailed
  · exact Or.inr hup

/-! ## Deafness -/

/-- The listener has stopped, and the link is not dead. -/
structure Deaf (t : Switchboard) : Prop where
  stopped : t.listener = .stopped
  alive : t.link.dead = none

/-- Over a deaf link nothing is handed over, and who waits does so until it gives its request up. -/
theorem Deaf.step (h : t.Deaf) (hk : t.Kept) (hstep : Step t t') :
    t'.Deaf ∧ t'.done = t.done ∧
      ∀ id ∈ t.link.waiting, id ∈ t'.link.waiting ∨ (t'.stand id).isGivenUp = true := by
  cases hstep with
  | caller hc =>
    obtain ⟨n, l, s, rfl, hm⟩ := hk.exists_moves hc
    exact ⟨⟨h.stopped, hm.dead.trans h.alive⟩, rfl, fun id hid => hk.waits_or_up hm hid⟩
  | listener hl =>
    cases hl with
    | hear hl | deafen hl | hangUp hl | deliver hl | die hl | fail hl | stop hl =>
      rw [h.stopped] at hl
      cases hl

theorem Deaf.later (h : t.Deaf) (hk : t.Kept) (hlater : Later t t') :
    t'.Deaf ∧ t'.done = t.done ∧
      ∀ id ∈ t.link.waiting, id ∈ t'.link.waiting ∨ (t'.stand id).isGivenUp = true := by
  induction hlater with
  | refl => exact ⟨h, rfl, fun _ => Or.inl⟩
  | tail hlater hstep ih =>
    obtain ⟨hdeaf, hdone, hwaits⟩ := ih
    have hk' := hk.later hlater
    obtain ⟨hdeaf', hdone', hwaits'⟩ := hdeaf.step hk' hstep
    refine ⟨hdeaf', hdone'.trans hdone, fun id hid => ?_⟩
    rcases hwaits id hid with hwait | hup
    · exact hwaits' id hwait
    · rw [hk'.stand_step hup hstep]
      exact Or.inr hup

/-! ## Order -/

/-- What comes of a listener that has met the death of the link. -/
structure Fails (t : Switchboard) (why : ActorFault) : Prop where
  /-- The listener alone can bring it to an end: every request that waits has failed. -/
  ends : ∃ t', Relation.ReflTransGen ListenerStep t t' ∧ t'.listener = .stopped ∧
    t'.link.dead = some why ∧ ∀ id ∈ t.link.waiting, (id, .error why) ∈ t'.done
  /-- Whoever takes the steps, a request that waits is handed no other answer. -/
  only : ∀ t', Later t t' → ∀ id ∈ t.link.waiting, ∀ a, (id, a) ∈ t'.done → a = .error why
  /-- When the listener has stopped, every request has failed, or its caller had given it up. -/
  all : ∀ t', Later t t' → t'.listener = .stopped → t'.link.dead = some why ∧
    ∀ id ∈ t.link.waiting, (id, .error why) ∈ t'.done ∨ (t'.stand id).isGivenUp = true
  /-- With one step of the listener the link is dead and nobody waits; and every request that had
  waited until then has failed when the listener has stopped, whatever its caller has done. -/
  marks : ∀ t', ListenerStep t t' → t'.link.dead = some why ∧ t'.link.waiting = [] ∧
    ∀ t'', Later t' t'' → t''.listener = .stopped →
      ∀ id ∈ t.link.waiting, (id, .error why) ∈ t''.done

/-- Once the link is marked dead, no request that waited until then can escape. -/
theorem Kept.marks (hk : t.Kept) (hdoomed : t.listener = .doomed why) (hstep : ListenerStep t t') :
    t'.link.dead = some why ∧ t'.link.waiting = [] ∧
      ∀ t'', Later t' t'' → t''.listener = .stopped →
        ∀ id ∈ t.link.waiting, (id, .error why) ∈ t''.done := by
  have ht := hk.takes_all hdoomed
  rw [eq_of_doomed hdoomed hstep]
  refine ⟨rfl, rfl, fun t'' hlater hstopped id hid => ?_⟩
  have hdone : t''.given = t''.done := given_eq_done (by rw [hstopped]; rfl)
  have hgiven := ((hk.take ht).given_later hlater).1.subset
  rw [hdone, ht.given] at hgiven
  exact hgiven (List.mem_append_right _ (Link.mem_die.2 ⟨hid, rfl⟩))

theorem Kept.fails (hk : t.Kept) (hdoomed : t.listener = .doomed why) : t.Fails why := by
  have hfalls : ∀ t', Later t t' → t'.Falls why t.link.waiting := fun t' hlater =>
    Falls.later ⟨Or.inl hdoomed, fun id hid => Or.inl ⟨hdoomed, hid⟩⟩ hk hlater
  refine {
    ends := ⟨_, dies_alone hdoomed, rfl, rfl, fun id hid => ?_⟩
    only := fun t' hlater id hid a ha => ?_
    all := fun t' hlater hstopped => (hfalls t' hlater).stopped hstopped
    marks := fun t' hstep => hk.marks hdoomed hstep }
  · exact List.mem_append_right _ (Link.mem_die.2 ⟨hid, rfl⟩)
  · exact (hfalls t' hlater).only (hk.later hlater) hid (List.mem_append_left _ ha)

/-- Who was not registered before the death of the link is refused with its cause. -/
theorem Kept.refuses_later (hk : t.Kept) (hdead : t.link.dead = some why) (hlater : Later t t')
    (hid : (t.stand id).hasRegistered = false) :
    (t'.stand id = .absent ∨ t'.stand id = .named ∨ t'.stand id = .refused why) ∧
      t'.link.register id = .error why := by
  have hk' := hk.later hlater
  obtain ⟨hdead', hback⟩ := hk.dead_later hdead hlater
  refine ⟨?_, ?_⟩
  · have hstill : (t'.stand id).hasRegistered ≠ true := fun h => by
      rw [hback id h] at hid
      cases hid
    cases hs : t'.stand id with
    | absent => exact Or.inl rfl
    | named => exact Or.inr (Or.inl rfl)
    | refused why' =>
      have hwhy := hk'.refused hs
      rw [hdead'] at hwhy
      cases hwhy
      exact Or.inr (Or.inr rfl)
    | _ =>
      rw [hs] at hstill
      exact absurd rfl hstill
  · unfold Link.register
    rw [hk'.writable, hdead']
    rfl

theorem Kept.outputs (hk : t.Kept) {silent : ActorFault} {results : List Bytes}
    (h : (t.stand id).outcome? silent = some (.ok results)) :
    ∃ line ∈ t.heard, ∃ reply, Json.read (Text.strip line) = .ok reply ∧
      Json.sameKey (.int id) (reply.field "id") = true ∧ Gives reply results := by
  cases hs : t.stand id with
  | told a =>
    rw [hs] at h
    obtain rfl : a = .ok results := Option.some.inj h
    obtain ⟨line, hline, ⟨reply, hread, hsame⟩, hanswer⟩ :=
      hk.truthful (List.mem_append_left _ (hk.told hs))
    rw [answerIn_of_read hread] at hanswer
    exact ⟨line, hline, reply, hread, hsame, answerOf_eq_ok_iff.1 hanswer⟩
  | _ =>
    rw [hs] at h
    cases h

/-! ## Top theorem -/

/-- A reply to the first request. -/
def replyToOne : Text := "\x7b\"id\":1,\"ok\":true,\"result\":\x7b\"outputs\":[\"aa\"]\x7d\x7d"

end Switchboard

end XofConformance.Actor
