import XofConformance.Proofs.Exchange.Runs

/-!
# The workers

What a turn of a worker does, what any number of turns leave as it is, and that waiting for the
calls handed over brings each of them to its end, whoever takes the turns.

    a turn does nothing, or brings one call a step further                   (turn_cases)
    when the calls have been waited for, each of them has ended              (run_settle)
-/

namespace XofConformance

variable {κ : Type} {m : Type → Type} [Monad m] {W : Type} [HasRuns m W] {env : Setting κ m}
  {p p' : Pool κ} {w w' : W}

/-! ## Calls -/

theorem Call.settle_eq_ok_iff {c : Call} {o : Outcome} {results : List Bytes} :
    c.settle o = .ok results ↔ o = .ok results ∧ (results.length : Int) = c.expected := by
  unfold Call.settle
  cases o with
  | error f => simp
  | ok rs =>
    simp only
    split
    · next h =>
      constructor
      · intro he; cases he; exact ⟨rfl, h⟩
      · rintro ⟨he, -⟩; exact he
    · next h =>
      constructor
      · intro he; cases he
      · rintro ⟨he, hl⟩; cases he; exact absurd hl h

/-- An answer that differs in the words of a failure only is settled in the same way. -/
theorem Call.settle_error_of_toOption {c : Call} {o o' : Outcome} {f : Fault}
    (h : o'.toOption = o.toOption) (hs : c.settle o = .error f) :
    ∃ f', c.settle o' = .error f' := by
  cases o with
  | error _ =>
    cases o' with
    | error f' => exact ⟨f'.asFailure, rfl⟩
    | ok _ => cases h
  | ok results =>
    cases o' with
    | error _ => cases h
    | ok _ =>
      cases h
      exact ⟨f, hs⟩

theorem run_ask {subject : Subject m} {c : Call} {r : Outcome} :
    Run (subject.ask c) w r w' ↔ ∃ o, Run (subject c) w o w' ∧ r = c.settle o := by
  unfold Subject.ask
  rw [run_bind]
  constructor
  · rintro ⟨o, v, ho, hp⟩
    obtain ⟨rfl, rfl⟩ := run_pure.1 hp
    exact ⟨o, ho, rfl⟩
  · rintro ⟨o, ho, rfl⟩
    exact ⟨o, w', ho, run_pure.2 ⟨rfl, rfl⟩⟩

/-! ## One step -/

/-- The steps that are still to be taken. -/
def Progress.stepsLeft : Progress → Nat
  | .queued => 3
  | .posted _ => 2
  | .answered _ => 1
  | .ended _ => 0

theorem Job.hasEnded_iff {job : Job κ} : job.hasEnded = true ↔ ∃ f, job.progress = .ended f := by
  unfold Job.hasEnded
  cases job.progress <;> simp

/-- What the next step of a call comes to, by how far the call is. -/
theorem advance_cases {job : Job κ} {client client' : κ} {progress : Progress}
    (h : Run (env.advance job client) w (progress, client') w') :
    (job.progress = .queued ∧ client' = client ∧
      ∃ t, Run (env.put job.call) w t w' ∧ progress = .posted t) ∨
    (∃ t o, job.progress = .posted t ∧ client' = client ∧
      Run (env.answer t job.call) w o w' ∧
      ((∃ results, job.call.settle o = .ok results ∧ progress = .answered results) ∨
        ∃ f, job.call.settle o = .error f ∧ progress = .ended (some f))) ∨
    (∃ results, job.progress = .answered results ∧ w' = w ∧
      ((job.deliver results client = .ok client' ∧ progress = .ended none) ∨
        ∃ f, job.deliver results client = .error f ∧ client' = client ∧
          progress = .ended (some f.asFailure))) ∨
    ∃ f, job.progress = .ended f ∧ progress = .ended f ∧ client' = client ∧ w' = w := by
  unfold Setting.advance at h
  cases hp : job.progress with
  | queued =>
    rw [hp] at h
    obtain ⟨t, v, ht, hr⟩ := run_bind.1 h
    obtain ⟨he, rfl⟩ := run_pure.1 hr
    cases he
    exact Or.inl ⟨rfl, rfl, t, ht, rfl⟩
  | posted t =>
    rw [hp] at h
    obtain ⟨o, v, ho, hr⟩ := run_bind.1 h
    refine Or.inr (Or.inl ⟨t, o, rfl, ?_⟩)
    cases hs : job.call.settle o with
    | ok results =>
      rw [hs] at hr
      obtain ⟨he, rfl⟩ := run_pure.1 hr
      cases he
      exact ⟨rfl, ho, Or.inl ⟨results, rfl, rfl⟩⟩
    | error f =>
      rw [hs] at hr
      obtain ⟨he, rfl⟩ := run_pure.1 hr
      cases he
      exact ⟨rfl, ho, Or.inr ⟨f, rfl, rfl⟩⟩
  | answered results =>
    rw [hp] at h
    refine Or.inr (Or.inr (Or.inl ⟨results, rfl, ?_⟩))
    cases hd : job.deliver results client with
    | ok c =>
      simp only [hd] at h
      obtain ⟨he, rfl⟩ := run_pure.1 h
      cases he
      exact ⟨rfl, Or.inl ⟨rfl, rfl⟩⟩
    | error f =>
      simp only [hd] at h
      obtain ⟨he, rfl⟩ := run_pure.1 h
      cases he
      exact ⟨rfl, Or.inr ⟨f, rfl, rfl, rfl⟩⟩
  | ended f =>
    rw [hp] at h
    obtain ⟨he, rfl⟩ := run_pure.1 h
    cases he
    exact Or.inr (Or.inr (Or.inr ⟨f, rfl, rfl, rfl, rfl⟩))

theorem advance_stepsLeft {job : Job κ} {client client' : κ} {progress : Progress}
    (h : Run (env.advance job client) w (progress, client') w') :
    progress.stepsLeft ≤ job.progress.stepsLeft - 1 := by
  rcases advance_cases h with ⟨hp, -, t, -, rfl⟩ | ⟨t, o, hp, -, -, hr⟩ | ⟨rs, hp, -, hr⟩ |
    ⟨f, hp, rfl, -⟩
  · simp [hp, Progress.stepsLeft]
  · rcases hr with ⟨rs, -, rfl⟩ | ⟨f, -, rfl⟩ <;> simp [hp, Progress.stepsLeft]
  · rcases hr with ⟨-, rfl⟩ | ⟨f, -, -, rfl⟩ <;> simp [hp, Progress.stepsLeft]
  · simp [hp, Progress.stepsLeft]

/-! ## Turns -/

/-- A turn does nothing, or brings a call that has not ended a step further. -/
theorem turn_cases {position : Nat} (h : Run (env.turn position p) w p' w') :
    (p' = p ∧ w' = w ∧ ∀ job, p.waiting[position]? = some job → job.hasEnded = true) ∨
    ∃ job progress client, p.waiting[position]? = some job ∧ job.hasEnded = false ∧
      Run (env.advance job p.client) w (progress, client) w' ∧
      p' = { p with
        client
        waiting := p.waiting.set position { job with progress }
        history := (job.number, progress) :: p.history } := by
  unfold Setting.turn at h
  cases hj : p.waiting[position]? with
  | none =>
    rw [hj] at h
    obtain ⟨rfl, rfl⟩ := run_pure.1 h
    exact Or.inl ⟨rfl, rfl, fun _ h => by cases h⟩
  | some job =>
    rw [hj] at h
    cases he : job.hasEnded with
    | true =>
      simp only [he, if_true] at h
      obtain ⟨rfl, rfl⟩ := run_pure.1 h
      exact Or.inl ⟨rfl, rfl, fun _ h => by cases h; exact he⟩
    | false =>
      simp only [he, Bool.false_eq_true, if_false] at h
      obtain ⟨⟨progress, client⟩, v, ha, hr⟩ := run_bind.1 h
      obtain ⟨rfl, rfl⟩ := run_pure.1 hr
      exact Or.inr ⟨job, progress, client, rfl, he, ha, rfl⟩

theorem run_work_nil : Run (env.work [] p) w p' w' ↔ p' = p ∧ w' = w := run_pure

theorem run_work_cons {position : Nat} {rest : List Nat} {p'' : Pool κ} {w'' : W} :
    Run (env.work (position :: rest) p) w p'' w'' ↔
      ∃ p' w', Run (env.turn position p) w p' w' ∧ Run (env.work rest p') w' p'' w'' := run_bind

/-- What every turn keeps, any number of turns keeps. -/
theorem work_keeps {I : Pool κ → W → Prop} {turns : List Nat}
    (step : ∀ {position : Nat} {p p' : Pool κ} {w w' : W},
      I p w → Run (env.turn position p) w p' w' → I p' w')
    (hi : I p w) (h : Run (env.work turns p) w p' w') : I p' w' := by
  induction turns generalizing p w with
  | nil =>
    obtain ⟨rfl, rfl⟩ := run_work_nil.1 h
    exact hi
  | cons position rest ih =>
    obtain ⟨q, v, ht, hr⟩ := run_work_cons.1 h
    exact ih (step hi ht) hr

/-! ## What turns leave as it is -/

/-- The two pools differ only in what the workers do. -/
structure SameCalls (p p' : Pool κ) : Prop where
  submitted : p'.submitted = p.submitted
  error : p'.error = p.error
  jobs : p'.waiting.map (fun job => { job with progress := .queued }) =
    p.waiting.map (fun job => { job with progress := .queued })

theorem SameCalls.refl (p : Pool κ) : SameCalls p p := ⟨rfl, rfl, rfl⟩

theorem SameCalls.trans {p p' p'' : Pool κ} (h : SameCalls p p') (h' : SameCalls p' p'') :
    SameCalls p p'' :=
  ⟨h'.submitted.trans h.submitted, h'.error.trans h.error, h'.jobs.trans h.jobs⟩

theorem turn_sameCalls {position : Nat} (h : Run (env.turn position p) w p' w') :
    SameCalls p p' := by
  rcases turn_cases h with ⟨rfl, -⟩ | ⟨job, progress, client, hj, -, -, rfl⟩
  · exact SameCalls.refl _
  · refine ⟨rfl, rfl, ?_⟩
    simp only [List.map_set]
    obtain ⟨hlt, rfl⟩ := List.getElem?_eq_some_iff.1 hj
    apply List.ext_getElem
    · simp
    · intro i h₁ h₂
      simp only [List.getElem_set, List.getElem_map]
      split
      · next he => subst he; rfl
      · rfl

theorem work_sameCalls {turns : List Nat} (h : Run (env.work turns p) w p' w') :
    SameCalls p p' :=
  work_keeps (I := fun q _ => SameCalls p q) (fun hi ht => hi.trans (turn_sameCalls ht))
    (SameCalls.refl p) h

theorem SameCalls.length_waiting (h : SameCalls p p') : p'.waiting.length = p.waiting.length := by
  simpa using congrArg List.length h.jobs

/-- What does not depend on how far calls have come is the same of them before and after. -/
theorem SameCalls.map_eq {β : Type} {f : Job κ → β} (h : SameCalls p p')
    (hf : ∀ job progress, f { job with progress } = f job) :
    p'.waiting.map f = p.waiting.map f := by
  have hm : ∀ jobs : List (Job κ),
      jobs.map f = (jobs.map fun job => { job with progress := .queued }).map f := by
    intro jobs
    rw [List.map_map]
    exact List.map_congr_left fun job _ => (hf job .queued).symm
  rw [hm p'.waiting, hm p.waiting, h.jobs]

/-- What does not depend on how far a call has come holds of a call before and after. -/
theorem SameCalls.exists_mem {Q : Job κ → Prop} (h : SameCalls p p')
    (hQ : ∀ job progress, Q { job with progress } ↔ Q job) :
    (∃ job ∈ p.waiting, Q job) → ∃ job ∈ p'.waiting, Q job := by
  rintro ⟨job, hj, hq⟩
  have hm := List.mem_map_of_mem (f := fun job : Job κ => { job with progress := .queued }) hj
  rw [← h.jobs, List.mem_map] at hm
  obtain ⟨job', hj', he⟩ := hm
  refine ⟨job', hj', ?_⟩
  rw [← hQ job' .queued, he]
  exact (hQ job .queued).2 hq

/-! ## Every call comes to its end -/

/-- A turn takes a step off what is left of the call at its position and leaves the rest. -/
theorem turn_stepsLeft {position : Nat} (h : Run (env.turn position p) w p' w') {i : Nat}
    {job' : Job κ} (hj' : p'.waiting[i]? = some job') :
    ∃ job, p.waiting[i]? = some job ∧
      job'.progress.stepsLeft ≤ job.progress.stepsLeft - if i = position then 1 else 0 := by
  rcases turn_cases h with ⟨rfl, -, he⟩ | ⟨job, progress, client, hj, -, ha, rfl⟩
  · refine ⟨job', hj', ?_⟩
    split
    · next hi =>
      subst hi
      obtain ⟨f, hf⟩ := Job.hasEnded_iff.1 (he job' hj')
      simp [hf, Progress.stepsLeft]
    · simp
  · simp only [List.getElem?_set] at hj'
    split at hj'
    · next hi =>
      subst hi
      split at hj'
      · cases hj'
        exact ⟨job, hj, by simpa using advance_stepsLeft ha⟩
      · cases hj'
    · next hi => exact ⟨job', hj', by simp [Ne.symm hi]⟩

theorem work_stepsLeft {turns : List Nat} (h : Run (env.work turns p) w p' w') {i : Nat}
    {job' : Job κ} (hj' : p'.waiting[i]? = some job') :
    ∃ job, p.waiting[i]? = some job ∧
      job'.progress.stepsLeft ≤ job.progress.stepsLeft - turns.count i := by
  induction turns generalizing p w with
  | nil =>
    obtain ⟨rfl, rfl⟩ := run_work_nil.1 h
    exact ⟨job', hj', by simp⟩
  | cons position rest ih =>
    obtain ⟨q, v, ht, hr⟩ := run_work_cons.1 h
    obtain ⟨job₁, h₁, hl₁⟩ := ih hr
    obtain ⟨job, h₀, hl₀⟩ := turn_stepsLeft ht h₁
    refine ⟨job, h₀, ?_⟩
    rw [List.count_cons]
    by_cases hi : i = position
    · subst hi
      simp only [beq_self_eq_true, if_true] at hl₀ ⊢
      omega
    · simp only [hi, if_false] at hl₀
      simp only [beq_iff_eq, Ne.symm hi, if_false]
      omega

theorem count_remainingTurns {count i : Nat} (h : i < count) :
    (Setting.remainingTurns count).count i = 3 := by
  unfold Setting.remainingTurns
  induction count with
  | zero => omega
  | succ n ih =>
    rw [List.range_succ, List.flatMap_append, List.count_append]
    rcases Nat.lt_succ_iff_lt_or_eq.1 h with hlt | rfl
    · rw [ih hlt]
      simp [Nat.ne_of_gt hlt]
    · have : ((List.range i).flatMap fun position => [position, position, position]).count i = 0 := by
        rw [List.count_eq_zero]
        simp
      rw [this]
      simp

/-! ## Waiting for the calls -/

/-- A pool whose workers have been waited for. -/
def Pool.joined (p : Pool κ) : Pool κ :=
  { p with waiting := [], error := p.error <|> p.waiting.findSome? Job.fault? }

/-- Waiting for the calls is a number of turns after which every call has ended. -/
theorem run_settle (h : Run (env.settle p) w p' w') :
    ∃ turns q,
      Run (env.work turns { p with waiting := env.schedule.release p.waiting }) w q w' ∧
      (∀ job ∈ q.waiting, job.hasEnded = true) ∧ p' = q.joined := by
  unfold Setting.settle at h
  obtain ⟨q, v, hw, hr⟩ := run_bind.1 h
  obtain ⟨rfl, rfl⟩ := run_pure.1 hr
  refine ⟨_, q, hw, fun job hj => ?_, rfl⟩
  obtain ⟨i, hi, rfl⟩ := List.getElem_of_mem hj
  have hlen : i < (env.schedule.release p.waiting).length :=
    (work_sameCalls hw).length_waiting ▸ hi
  obtain ⟨job₀, -, hl⟩ := work_stepsLeft hw (List.getElem?_eq_getElem hi)
  rw [List.count_append, count_remainingTurns hlen] at hl
  have hle : job₀.progress.stepsLeft ≤ 3 := by cases job₀.progress <;> simp [Progress.stepsLeft]
  have hz : q.waiting[i].progress.stepsLeft = 0 := by omega
  rw [Job.hasEnded_iff]
  cases hp : q.waiting[i].progress <;> simp_all [Progress.stepsLeft]

/-- A failure that counts is not replaced by another one. -/
theorem settle_error {f : Fault} (h : Run (env.settle p) w p' w') (he : p.error = some f) :
    p'.error = some f := by
  obtain ⟨turns, q, hw, -, rfl⟩ := run_settle h
  have hq : q.error = some f := (work_sameCalls hw).error.trans he
  unfold Pool.joined
  rw [hq]
  rfl

end XofConformance
