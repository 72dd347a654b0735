import XofConformance.Proofs.Exchange.History

/-!
# Failures that are still to be raised

The first failure that counts depends on the order in which calls are released, on the turns of the
workers and on what is lost; that there is one does not. At any moment a failure is recorded, or a
call that waits has failed, if and only if a call has failed that was handed over since the pool was
drained last.

    Watched n p → Run (env.settle p) w p' w' →
      (p'.error.isSome ↔ p'.HasFailedSince n)                                  (Watched.settle)
-/

namespace XofConformance

section

variable {κ : Type} {p : Pool κ} {n : Nat}

/-- The calls that wait after one was handed over: it is among them unless it was lost. -/
theorem Schedule.mem_accept_iff {schedule : Schedule κ} {c : Call}
    {deliver : List Bytes → κ → Except Fault κ} {job : Job κ} :
    job ∈ (schedule.accept c deliver p).waiting ↔ job ∈ p.waiting ∨
      schedule.lost p.submitted = false ∧ job = { number := p.submitted, call := c, deliver } := by
  unfold accept
  cases schedule.lost p.submitted <;> simp

/-- A call has failed that has this number or a later one. -/
def Pool.HasFailedSince (p : Pool κ) (n : Nat) : Prop := ∃ k, n ≤ k ∧ (p.faultOf k).isSome = true

theorem Pool.hasFailedSince_iff :
    p.HasFailedSince n ↔ ∃ step ∈ p.history, n ≤ step.1 ∧ step.2.fault?.isSome = true := by
  have hfault {k : Nat} : (p.faultOf k).isSome = true ↔
      ∃ step ∈ p.history, step.1 = k ∧ step.2.fault?.isSome = true := by
    unfold faultOf life
    rw [List.findSome?_isSome_iff]
    simp only [List.mem_reverse, List.mem_map, List.mem_filter, beq_iff_eq]
    constructor
    · rintro ⟨progress, ⟨step, ⟨hm, hk⟩, rfl⟩, hf⟩
      exact ⟨step, hm, hk, hf⟩
    · rintro ⟨step, hm, hk, hf⟩
      exact ⟨step.2, ⟨step, ⟨hm, hk⟩, rfl⟩, hf⟩
  constructor
  · rintro ⟨k, hk, hf⟩
    obtain ⟨step, hm, rfl, hstep⟩ := hfault.1 hf
    exact ⟨step, hm, hk, hstep⟩
  · rintro ⟨step, hm, hn, hf⟩
    exact ⟨step.1, hn, hfault.2 ⟨step, hm, rfl, hf⟩⟩

/-- The failures from a number on are watched: every call that waits has that number or a later one,
and a failure is still to be raised if and only if one of these calls has failed. -/
structure Watched (n : Nat) (p : Pool κ) : Prop where
  since : n ≤ p.submitted
  waiting : ∀ job ∈ p.waiting, n ≤ job.number ∧ job.number < p.submitted
  history : ∀ step ∈ p.history, step.1 < p.submitted
  failure : (p.error.isSome = true ∨ ∃ job ∈ p.waiting, job.fault?.isSome = true) ↔
    p.HasFailedSince n

end

namespace Watched

variable {κ : Type} {m : Type → Type} [Monad m] {W : Type} [HasRuns m W] {env : Setting κ m}
  {p p' : Pool κ} {w w' : W} {n : Nat}

theorem start {client : κ} : Watched n { client, submitted := n } where
  since := Nat.le_refl n
  waiting := fun _ h => by cases h
  history := fun _ h => by cases h
  failure := by
    rw [Pool.hasFailedSince_iff]
    constructor
    · rintro (h | ⟨_, h, -⟩) <;> cases h
    · rintro ⟨_, h, -⟩
      cases h

/-- What a client does with its own state is not watched. -/
theorem client (h : Watched n p) (client : κ) : Watched n { p with client } :=
  ⟨h.since, h.waiting, h.history, h.failure⟩

theorem turn {position : Nat} (h : Watched n p) (ht : Run (env.turn position p) w p' w') :
    Watched n p' := by
  rcases turn_cases ht with ⟨rfl, -, -⟩ | ⟨job, progress, client, hj, he, -, rfl⟩
  · exact h
  have hmem := List.mem_of_getElem? hj
  have hfine : job.fault? = none := by
    unfold Job.fault?
    unfold Job.hasEnded at he
    split
    · next hp =>
      rw [hp] at he
      cases he
    · rfl
  refine ⟨h.since, fun job' hj' => ?_, fun step hs => ?_, ?_⟩
  · rcases List.mem_or_eq_of_mem_set hj' with hm | rfl
    · exact h.waiting job' hm
    · exact h.waiting job hmem
  · rcases List.mem_cons.1 hs with rfl | hs
    · exact (h.waiting job hmem).2
    · exact h.history step hs
  -- the step that is taken fails its call, or there is the same to be raised as before
  have hsince : Pool.HasFailedSince { p with
        client
        waiting := p.waiting.set position { job with progress }
        history := (job.number, progress) :: p.history } n ↔
      progress.fault?.isSome = true ∨ p.HasFailedSince n := by
    simp only [Pool.hasFailedSince_iff, List.mem_cons, exists_eq_or_imp]
    simp only [(h.waiting job hmem).1, true_and]
  rw [hsince, ← h.failure]
  constructor
  · rintro (herror | ⟨job', hj', hf⟩)
    · exact Or.inr (Or.inl herror)
    · rcases List.mem_or_eq_of_mem_set hj' with hm | rfl
      · exact Or.inr (Or.inr ⟨job', hm, hf⟩)
      · rw [Job.fault?_eq] at hf
        exact Or.inl hf
  · have hown : { job with progress } ∈ p.waiting.set position { job with progress } := by
      obtain ⟨hlt, -⟩ := List.getElem?_eq_some_iff.1 hj
      exact List.mem_set hlt _
    rintro (hf | herror | ⟨job', hj', hf⟩)
    · exact Or.inr ⟨_, hown, by rw [Job.fault?_eq]; exact hf⟩
    · exact Or.inl herror
    · refine Or.inr ⟨job', mem_set_of_ne hj hj' (fun heq => ?_), hf⟩
      rw [heq, hfine] at hf
      cases hf

theorem work {turns : List Nat} (h : Watched n p) (hw : Run (env.work turns p) w p' w') :
    Watched n p' :=
  work_keeps (I := fun q _ => Watched n q) (fun hi ht => hi.turn ht) h hw

/-- After the calls have been waited for, a failure is recorded if and only if a call that is
watched has failed. -/
theorem settle (hf : env.schedule.Faithful) (h : Watched n p)
    (hs : Run (env.settle p) w p' w') :
    Watched n p' ∧ p'.waiting = [] ∧ (p'.error.isSome = true ↔ p'.HasFailedSince n) := by
  obtain ⟨turns, q, hw, -, rfl⟩ := run_settle hs
  have hreleased : Watched n { p with waiting := env.schedule.release p.waiting } := by
    have hmem {job : Job κ} : job ∈ env.schedule.release p.waiting ↔ job ∈ p.waiting :=
      (hf p.waiting).mem_iff
    refine ⟨h.since, fun job hj => h.waiting job (hmem.1 hj), h.history, ?_⟩
    simp only [hmem]
    exact h.failure
  have hq := hreleased.work hw
  have herror : q.joined.error.isSome = true ↔ q.joined.HasFailedSince n := by
    show (q.error <|> q.waiting.findSome? Job.fault?).isSome = true ↔ q.HasFailedSince n
    rw [← hq.failure, ← List.findSome?_isSome_iff]
    cases q.error <;> simp
  refine ⟨⟨hq.since, fun job hj => ?_, hq.history, ?_⟩, rfl, herror⟩
  · cases hj
  · rw [← herror]
    constructor
    · rintro (he | ⟨_, hj, -⟩)
      · exact he
      · cases hj
    · exact Or.inl

/-- A call that was handed over has not failed yet. -/
theorem accept {c : Call} {deliver : List Bytes → κ → Except Fault κ} (h : Watched n p) :
    Watched n (env.schedule.accept c deliver p) := by
  refine ⟨Nat.le_succ_of_le h.since, fun job hj => ?_,
    fun step hs => Nat.lt_succ_of_lt (h.history step hs), ?_⟩
  · rcases Schedule.mem_accept_iff.1 hj with hj | ⟨-, rfl⟩
    · exact ⟨(h.waiting job hj).1, Nat.lt_succ_of_lt (h.waiting job hj).2⟩
    · exact ⟨h.since, Nat.lt_succ_self _⟩
  · refine Iff.trans (or_congr_right ⟨?_, ?_⟩) h.failure
    · rintro ⟨job, hj, hf⟩
      rcases Schedule.mem_accept_iff.1 hj with hj | ⟨-, rfl⟩
      · exact ⟨job, hj, hf⟩
      · cases hf
    · rintro ⟨job, hj, hf⟩
      exact ⟨job, Schedule.mem_accept_iff.2 (Or.inl hj), hf⟩

/-- Draining forgets the failures, and only later calls are watched from then on. -/
theorem forget (h : Watched n p) (hp : p.waiting = []) :
    Watched p.submitted { p with error := none } := by
  refine ⟨Nat.le_refl _, fun job hj => ?_, h.history, ?_⟩
  · rw [show ({ p with error := none } : Pool κ).waiting = [] from hp] at hj
    cases hj
  · rw [Pool.hasFailedSince_iff]
    constructor
    · rintro (he | ⟨_, hj, -⟩)
      · cases he
      · rw [show ({ p with error := none } : Pool κ).waiting = [] from hp] at hj
        cases hj
    · rintro ⟨step, hs, hle, -⟩
      exact absurd (h.history step hs) (Nat.not_lt.2 hle)

end Watched

end XofConformance
