import XofConformance.Proofs.Exchange.Workers

/-!
# What a client may do

The runs of the operations on a pool, each in terms of the runs of what it is made of, and the
promises that hold whatever the subject does: draining leaves the pool idle, and an idle pool
has nothing to wait for.

    Ends (env.drain) (p, w) r (p', w') → p'.IsIdle                          (drain_idle)
-/

namespace XofConformance

variable {κ : Type} {m : Type → Type} [Monad m] {W : Type} [HasRuns m W] {env : Setting κ m}
  {p p' : Pool κ} {w w' : W}

/-! ## Waiting -/

theorem settle_waiting (h : Run (env.settle p) w p' w') : p'.waiting = [] := by
  obtain ⟨turns, q, -, -, rfl⟩ := run_settle h
  rfl

/-- The schedule releases every call that is handed over, and no other. -/
def Schedule.Faithful (schedule : Schedule κ) : Prop :=
  ∀ jobs, (schedule.release jobs).Perm jobs

theorem Schedule.Faithful.release_nil {schedule : Schedule κ} (h : schedule.Faithful) :
    schedule.release [] = [] := List.perm_nil.1 (h [])

/-- Turns change nothing where no call is. -/
theorem work_nothing {turns : List Nat} (hp : p.waiting = []) (h : Run (env.work turns p) w p' w') :
    p' = p ∧ w' = w := by
  refine work_keeps (I := fun q v => q = p ∧ v = w) (fun hi ht => ?_) ⟨rfl, rfl⟩ h
  obtain ⟨rfl, rfl⟩ := hi
  rcases turn_cases ht with ⟨hq, hv, -⟩ | ⟨job, _, _, hj, -⟩
  · exact ⟨hq, hv⟩
  · rw [hp] at hj
    cases hj

/-- Where no call waits, waiting for the calls does nothing to the world. -/
theorem settle_without_calls (hf : env.schedule.Faithful) (hp : p.waiting = [])
    (h : Run (env.settle p) w p' w') : w' = w := by
  obtain ⟨turns, q, hw, -, rfl⟩ := run_settle h
  rw [hp, hf.release_nil] at hw
  exact (work_nothing rfl hw).2

theorem settle_of_idle (hf : env.schedule.Faithful) (hp : p.IsIdle)
    (h : Run (env.settle p) w p' w') : p' = p ∧ w' = w := by
  obtain ⟨turns, q, hw, -, rfl⟩ := run_settle h
  obtain ⟨client, submitted, waiting, error, history⟩ := p
  obtain ⟨rfl, rfl⟩ := hp
  obtain ⟨rfl, rfl⟩ := work_nothing hf.release_nil hw
  simp [Pool.joined, hf.release_nil]

/-! ## Operations -/

/-- The pool after a call was handed over. -/
def Schedule.accept (schedule : Schedule κ) (c : Call)
    (deliver : List Bytes → κ → Except Fault κ) (p : Pool κ) : Pool κ :=
  { p with
    submitted := p.submitted + 1
    waiting := if schedule.lost p.submitted then p.waiting
      else p.waiting ++ [{ number := p.submitted, call := c, deliver }] }

variable [LawfulMonad m]

/-- A failure that counts, as it is raised. -/
def raised : Option Fault → Except Fault Unit
  | some f => .error f
  | none => .ok ()

theorem ends_join {r : Except Fault Unit} :
    Ends env.join (p, w) r (p', w') ↔ r = .ok () ∧ Run (env.settle p) w p' w' := by
  unfold Setting.join
  rw [ends_get_bind, ends_effect_bind]
  constructor
  · rintro ⟨q, v, hs, hset⟩
    obtain ⟨hr, rfl, rfl⟩ := ends_set.1 hset
    exact ⟨hr, hs⟩
  · rintro ⟨hr, hs⟩
    exact ⟨p', w', hs, ends_set.2 ⟨hr, rfl, rfl⟩⟩

theorem ends_join_bind {β : Type} {f : Unit → Exchange κ m β} {r : Except Fault β}
    {v : Pool κ × W} :
    Ends (env.join >>= f) (p, w) r v ↔
      ∃ p' w', Run (env.settle p) w p' w' ∧ Ends (f ()) (p', w') r v := by
  rw [ends_bind]
  constructor
  · rintro (⟨e, he, -⟩ | ⟨⟨⟩, ⟨p', w'⟩, hj, hf⟩)
    · exact absurd (ends_join.1 he).1 (by simp)
    · exact ⟨p', w', (ends_join.1 hj).2, hf⟩
  · rintro ⟨p', w', hs, hf⟩
    exact Or.inr ⟨(), (p', w'), ends_join.2 ⟨rfl, hs⟩, hf⟩

theorem ends_transact {c : Call} {r : Outcome} :
    Ends (env.transact c) (p, w) r (p', w') ↔ Run (env.subject.ask c) w r w' ∧ p' = p := by
  have hl : ∀ {o : Outcome} {v : W},
      Ends (Setting.transact.liftExcept o : Exchange κ m (List Bytes)) (p, v) r (p', w') ↔
        r = o ∧ p' = p ∧ w' = v := by
    intro o v
    cases o with
    | ok results => exact ends_pure.trans (by rw [Prod.mk.injEq])
    | error f => exact ends_throw.trans (by rw [Prod.mk.injEq])
  unfold Setting.transact
  rw [ends_effect_bind]
  constructor
  · rintro ⟨o, v, ho, hrest⟩
    obtain ⟨rfl, hp, rfl⟩ := hl.1 hrest
    exact ⟨ho, hp⟩
  · rintro ⟨ho, hp⟩
    exact ⟨r, w', ho, hl.2 ⟨rfl, hp, rfl⟩⟩

theorem ends_submit {c : Call} {deliver : List Bytes → κ → Except Fault κ} {r : Except Fault Unit} :
    Ends (env.submit c deliver) (p, w) r (p', w') ↔
      r = .ok () ∧ p' = env.schedule.accept c deliver p ∧ w' = w := ends_modify

theorem ends_checkpoint {α : Type} {action : Exchange κ m α} {r : Except Fault α} {p'' : Pool κ}
    {w'' : W} :
    Ends (env.checkpoint action) (p, w) r (p'', w'') ↔
      ∃ p' w', Run (env.settle p) w p' w' ∧
        ((∃ f, p'.error = some f ∧ r = .error f ∧ p'' = p' ∧ w'' = w') ∨
          p'.error = none ∧ Ends action (p', w') r (p'', w'')) := by
  unfold Setting.checkpoint
  simp only [ends_join_bind, ends_get_bind]
  refine exists_congr fun q => exists_congr fun v => and_congr_right fun _ => ?_
  cases q.error with
  | some f => simp [ends_throw]
  | none => simp

theorem ends_drain {r : Except Fault Unit} :
    Ends env.drain (p, w) r (p', w') ↔
      ∃ q, Run (env.settle p) w q w' ∧ r = raised q.error ∧ p' = { q with error := none } := by
  have hraise : ∀ {o : Option Fault} {q : Pool κ} {v : W}, Ends (match o with
        | some f => throw f
        | none => return : Exchange κ m Unit) (q, v) r (p', w') ↔
      r = raised o ∧ p' = q ∧ w' = v := by
    intro o q v
    cases o with
    | some f => exact ends_throw.trans (by rw [Prod.mk.injEq]; rfl)
    | none => exact ends_pure.trans (by rw [Prod.mk.injEq]; rfl)
  unfold Setting.drain
  simp only [ends_join_bind, ends_get_bind, ends_set_bind]
  constructor
  · rintro ⟨q, v, hs, hrest⟩
    obtain ⟨hr, hp, rfl⟩ := hraise.1 hrest
    exact ⟨q, hs, hr, hp⟩
  · rintro ⟨q, hs, hr, hp⟩
    exact ⟨q, w', hs, hraise.2 ⟨hr, hp, rfl⟩⟩

/-- Whatever the pool was like, draining leaves it idle. -/
theorem drain_idle {r : Except Fault Unit} (h : Ends env.drain (p, w) r (p', w')) : p'.IsIdle := by
  obtain ⟨q, hs, -, rfl⟩ := ends_drain.1 h
  exact ⟨(settle_waiting hs :), rfl⟩

/-- Where no call waits, draining does nothing to the world. -/
theorem drain_without_calls {r : Except Fault Unit} (hf : env.schedule.Faithful)
    (hp : p.waiting = []) (h : Ends env.drain (p, w) r (p', w')) : w' = w := by
  obtain ⟨q, hs, -, -⟩ := ends_drain.1 h
  exact settle_without_calls hf hp hs

theorem drain_of_idle {r : Except Fault Unit} (hf : env.schedule.Faithful) (hp : p.IsIdle)
    (h : Ends env.drain (p, w) r (p', w')) : r = .ok () ∧ p' = p ∧ w' = w := by
  obtain ⟨q, hs, rfl, rfl⟩ := ends_drain.1 h
  obtain ⟨rfl, rfl⟩ := settle_of_idle hf hp hs
  obtain ⟨client, submitted, waiting, error, history⟩ := q
  obtain ⟨rfl, rfl⟩ := hp
  exact ⟨rfl, rfl, rfl⟩

end XofConformance
