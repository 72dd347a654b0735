import XofConformance.Proofs.Actor.Soundness

/-!
# Progress of traffic

Nobody waits for ever: as long as the actor has an answer to every request, somebody can move
until every caller has ended, and only so many moves can be made.

    t.inbox = [] → (∀ t', ¬ Move actor t t') → all callers have ended      (Sound.ended_of_quiet)
    moves lead from t to traffic in which all callers have ended           (Sound.exists_rest)
-/

namespace XofConformance.Actor.Traffic

variable {actor : Behaviour} {t t' : Traffic} {i id : Nat} {c : Caller}

/-- Every caller has ended. -/
def AtRest (t : Traffic) : Prop := ∀ c ∈ t.callers, ∃ o, c.outcome? = some o

/-- If the actor owes nothing, a caller that has not ended is not stuck. -/
theorem Sound.exists_move_of_answered (h : t.Sound actor) (hin : t.inbox = []) (hc : c ∈ t.callers)
    (hne : c.outcome? = none) : ∃ t', Move actor t t' := by
  obtain ⟨i, hi⟩ := List.mem_iff_getElem?.1 hc
  cases hout : t.outbox with
  | cons r rest => exact ⟨_, .hear hout⟩
  | nil =>
    cases hs : c.stage with
    | fresh => exact ⟨_, .take hi hs⟩
    | named id => exact ⟨_, .register hi hs (Link.register_of_alive h.writable h.alive)⟩
    | registered id => exact ⟨_, .write hi hs⟩
    | written id =>
      -- the request was answered and the answer was heard, so it is there
      have hreq := h.placed c hc
      rw [Placed, hs] at hreq
      unfold requests at hreq
      rw [hin, hout] at hreq
      obtain ⟨r, hr, he⟩ := List.mem_map.1 hreq
      have hmem : (id, answerIn r.line) ∈ t.answers := by
        rw [h.recorded, List.mem_map]
        exact ⟨r, hr, by rw [he]⟩
      have hsome : (t.answers.lookup id).isSome = true := by
        rw [List.lookup_isSome_iff]
        exact ⟨_, hmem, beq_self_eq_true id⟩
      obtain ⟨a, ha⟩ := Option.isSome_iff_exists.1 hsome
      exact ⟨_, .wake hi hs ha⟩
    | ended id a =>
      rw [Caller.outcome?_of_ended hs] at hne
      cases hne

/-- When the actor owes nothing and nobody can move, all callers have ended. -/
theorem Sound.ended_of_quiet (h : t.Sound actor) (hin : t.inbox = [])
    (hquiet : ∀ t', ¬ Move actor t t') : t.AtRest := by
  intro c hc
  cases ho : c.outcome? with
  | some o => exact ⟨o, rfl⟩
  | none =>
    obtain ⟨t', hm⟩ := h.exists_move_of_answered hin hc ho
    exact absurd hm (hquiet t')

/-- With an actor that has a reply to every request, some moves bring all callers to their end. -/
theorem Sound.exists_rest (hactor : Replies actor) (htotal : Responsive actor)
    (h : t.Sound actor) : ∃ t', Relation.ReflTransGen (Move actor) t t' ∧ t'.AtRest := by
  induction hn : t.effort using Nat.strongRecOn generalizing t with
  | _ n ih =>
    by_cases hmove : ∃ t', Move actor t t'
    · obtain ⟨t₁, hm⟩ := hmove
      have hlt := hm.effort_lt
      rw [hn] at hlt
      obtain ⟨t', hrest, hend⟩ := ih t₁.effort hlt (h.move hactor hm) rfl
      exact ⟨t', .head hm hrest, hend⟩
    · refine ⟨t, .refl, h.ended_of_quiet ?_ fun t' hm => hmove ⟨t', hm⟩⟩
      cases hin : t.inbox with
      | nil => rfl
      | cons r rest =>
        obtain ⟨line, hl⟩ := htotal r.id r.call
        have hb : t.inbox = [] ++ r :: rest := hin
        exact absurd ⟨_, .answer hb hl⟩ hmove

end XofConformance.Actor.Traffic
