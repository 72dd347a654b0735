import XofConformance.Proofs.Exchange.Account

/-!
# Exchanges that come to an end

An effect on a world that others act on as well may have no run at all. A subject is live if it
takes every call and answers every call that was put to it; then whatever the workers do comes to
an end, and so does every operation of a client.

    A.Live → A.Holds p w → ∃ p' w', Run (env.settle p) w p' w'            (Account.exists_settle)
-/

namespace XofConformance

variable {m : Type → Type} [Monad m] {W : Type} [HasRuns m W] {α β : Type}

/-! ## Effects with faults -/

/-- From every world of a kind the effect comes to an end, in a world of that kind. -/
def Able (I : W → Prop) (x : ExceptT Fault m α) : Prop :=
  ∀ w, I w → ∃ r w', Ends x w r w' ∧ I w'

variable {I : W → Prop}

theorem able_pure {a : α} : Able I (pure a : ExceptT Fault m α) :=
  fun w hw => ⟨.ok a, w, ends_pure.2 ⟨rfl, rfl⟩, hw⟩

theorem able_throw {f : Fault} : Able I (throw f : ExceptT Fault m α) :=
  fun w hw => ⟨.error f, w, ends_throw.2 ⟨rfl, rfl⟩, hw⟩

theorem able_liftExcept {x : Except Fault α} : Able I (liftM x : ExceptT Fault m α) :=
  fun w hw => ⟨x, w, ends_liftExcept.2 ⟨rfl, rfl⟩, hw⟩

theorem able_bind {x : ExceptT Fault m α} {f : α → ExceptT Fault m β} (hx : Able I x)
    (hf : ∀ a, Able I (f a)) : Able I (x >>= f) := by
  intro w hw
  obtain ⟨q, v, hq, hv⟩ := hx w hw
  cases q with
  | error e => exact ⟨.error e, v, ends_bind.2 (Or.inl ⟨e, hq, rfl⟩), hv⟩
  | ok a =>
    obtain ⟨r, w', hr, hw'⟩ := hf a v hv
    exact ⟨r, w', ends_bind.2 (Or.inr ⟨a, v, hq, hr⟩), hw'⟩

theorem able_tryCatch {x : ExceptT Fault m α} {handle : Fault → ExceptT Fault m α}
    (hx : Able I x) (hh : ∀ e, Able I (handle e)) : Able I (tryCatch x handle) := by
  intro w hw
  obtain ⟨q, v, hq, hv⟩ := hx w hw
  cases q with
  | ok a => exact ⟨.ok a, v, ends_tryCatch.2 (Or.inl ⟨a, hq, rfl⟩), hv⟩
  | error e =>
    obtain ⟨r, w', hr, hw'⟩ := hh e v hv
    exact ⟨r, w', ends_tryCatch.2 (Or.inr ⟨e, v, hq, hr⟩), hw'⟩

theorem able_adapt [LawfulMonad m] {x : ExceptT Fault m α} {f : Fault → Fault} (hx : Able I x) :
    Able I (x.adapt f) := by
  intro w hw
  obtain ⟨q, w', hq, hw'⟩ := hx w hw
  exact ⟨_, w', ends_adapt.2 ⟨q, hq, rfl⟩, hw'⟩

/-! ## Workers -/

namespace Account

variable {κ : Type} {env : Setting κ m} {A : Account env} {p p' : Pool κ} {w w' : W}

/-- The subject takes every call, answers every call that was put to it, and answers whoever asks
it directly. -/
structure Live (A : Account env) : Prop where
  put (c : Call) {w : W} : A.Sound w → ∃ t w', Run (env.put c) w t w'
  answer {t : Nat} {c : Call} {w : W} : A.Sound w → A.Posted w t c →
    ∃ o w', Run (env.answer t c) w o w'
  ask (c : Call) {w : W} : A.Sound w → ∃ o w', Run (env.subject c) w o w'

theorem exists_advance (hA : A.Live) (hs : A.Sound w) {job : Job κ}
    (hp : ∀ t, job.progress = .posted t → A.Posted w t job.call) (client : κ) :
    ∃ r w', Run (env.advance job client) w r w' := by
  unfold Setting.advance
  cases hj : job.progress with
  | queued =>
    obtain ⟨t, v, ht⟩ := hA.put job.call hs
    exact ⟨_, v, run_bind.2 ⟨t, v, ht, run_pure.2 ⟨rfl, rfl⟩⟩⟩
  | posted t =>
    obtain ⟨o, v, ho⟩ := hA.answer hs (hp t hj)
    cases hs : job.call.settle o with
    | ok results =>
      exact ⟨_, v, run_bind.2 ⟨o, v, ho, by rw [hs]; exact run_pure.2 ⟨rfl, rfl⟩⟩⟩
    | error f => exact ⟨_, v, run_bind.2 ⟨o, v, ho, by rw [hs]; exact run_pure.2 ⟨rfl, rfl⟩⟩⟩
  | answered results =>
    simp only
    cases job.deliver results client with
    | ok client' => exact ⟨_, w, run_pure.2 ⟨rfl, rfl⟩⟩
    | error f => exact ⟨_, w, run_pure.2 ⟨rfl, rfl⟩⟩
  | ended f => exact ⟨_, w, run_pure.2 ⟨rfl, rfl⟩⟩

theorem exists_turn (hA : A.Live) (h : A.Holds p w) (position : Nat) :
    ∃ p' w', Run (env.turn position p) w p' w' := by
  unfold Setting.turn
  cases hj : p.waiting[position]? with
  | none => exact ⟨p, w, run_pure.2 ⟨rfl, rfl⟩⟩
  | some job =>
    by_cases he : job.hasEnded = true
    · simp only [he, if_true]
      exact ⟨p, w, run_pure.2 ⟨rfl, rfl⟩⟩
    · simp only [he, Bool.false_eq_true, if_false]
      obtain ⟨r, v, hr⟩ :=
        exists_advance hA h.sound (h.posted job (List.mem_of_getElem? hj)) p.client
      exact ⟨_, v, run_bind.2 ⟨r, v, hr, run_pure.2 ⟨rfl, rfl⟩⟩⟩

theorem exists_work (hA : A.Live) (h : A.Holds p w) (turns : List Nat) :
    ∃ p' w', Run (env.work turns p) w p' w' := by
  induction turns generalizing p w with
  | nil => exact ⟨p, w, run_work_nil.2 ⟨rfl, rfl⟩⟩
  | cons position rest ih =>
    obtain ⟨q, v, hq⟩ := exists_turn hA h position
    obtain ⟨p', w', hr⟩ := ih (turn_holds h hq).1
    exact ⟨p', w', run_work_cons.2 ⟨q, v, hq, hr⟩⟩

theorem exists_settle (hA : A.Live) (hf : env.schedule.Faithful) (h : A.Holds p w) :
    ∃ p' w', Run (env.settle p) w p' w' := by
  have hreleased : A.Holds { p with waiting := env.schedule.release p.waiting } w :=
    ⟨h.sound, fun job hj => h.posted job ((hf p.waiting).mem_iff.1 hj)⟩
  obtain ⟨q, v, hw⟩ := exists_work hA hreleased
    (env.schedule.turns (env.schedule.release p.waiting) ++
      Setting.remainingTurns (env.schedule.release p.waiting).length)
  exact ⟨_, v, run_bind.2 ⟨q, v, hw, run_pure.2 ⟨rfl, rfl⟩⟩⟩

/-! ## Operations -/

section

variable [LawfulMonad m]

/-- The exchange comes to an end wherever the account holds, and the account holds there. -/
def Able (A : Account env) (x : Exchange κ m α) : Prop :=
  XofConformance.Able (fun v : Pool κ × W => A.Holds v.1 v.2) x

theorem able_submit {c : Call} {deliver : List Bytes → κ → Except Fault κ} :
    A.Able (env.submit c deliver) := by
  rintro ⟨p, w⟩ h
  refine ⟨.ok (), (env.schedule.accept c deliver p, w), ends_submit.2 ⟨rfl, rfl, rfl⟩,
    h.sound, fun job hj t ht => ?_⟩
  unfold Schedule.accept at hj
  simp only at hj
  split at hj
  · exact h.posted job hj t ht
  · rcases List.mem_append.1 hj with hj | hj
    · exact h.posted job hj t ht
    · rw [List.mem_singleton.1 hj] at ht
      cases ht

theorem able_checkpoint (hA : A.Live) (hf : env.schedule.Faithful) {action : Exchange κ m α}
    (ha : A.Able action) : A.Able (env.checkpoint action) := by
  rintro ⟨p, w⟩ h
  obtain ⟨q, v, hs⟩ := exists_settle hA hf h
  have hq : A.Holds q v := holds_of_idle (settle_later hf h hs).sound (settle_waiting hs)
  cases he : q.error with
  | some f =>
    exact ⟨.error f, (q, v), ends_checkpoint.2 ⟨q, v, hs, Or.inl ⟨f, he, rfl, rfl, rfl⟩⟩, hq⟩
  | none =>
    obtain ⟨r, ⟨p', w'⟩, hr, h'⟩ := ha (q, v) hq
    exact ⟨r, (p', w'), ends_checkpoint.2 ⟨q, v, hs, Or.inr ⟨he, hr⟩⟩, h'⟩

theorem able_drain (hA : A.Live) (hf : env.schedule.Faithful) : A.Able env.drain := by
  rintro ⟨p, w⟩ h
  obtain ⟨q, v, hs⟩ := exists_settle hA hf h
  refine ⟨_, ({ q with error := none }, v), ends_drain.2 ⟨q, hs, rfl, rfl⟩, ?_⟩
  have hwait : q.waiting = [] := settle_waiting hs
  exact holds_of_idle (settle_later hf h hs).sound hwait

omit [LawfulMonad m] in
/-- Asking the subject directly disturbs no call that was put to it. -/
theorem able_ask (hA : A.Live) {c : Call} :
    XofConformance.Able (A.Holds p) (ExceptT.mk (env.subject.ask c)) := by
  intro w h
  obtain ⟨o, w', ho⟩ := hA.ask c h.sound
  have hr : Run (env.subject.ask c) w (c.settle o) w' := run_ask.2 ⟨o, ho, rfl⟩
  obtain ⟨hl, -⟩ := ask_later h.sound hr
  exact ⟨_, w', hr, hl.sound, fun job hj t ht => hl.posted (h.posted job hj t ht)⟩

omit [LawfulMonad m] in
/-- What comes to an end beside any pool does so as a part of an exchange. -/
theorem able_fallible {x : m (Except Fault α)}
    (hx : ∀ p, XofConformance.Able (A.Holds p) (ExceptT.mk x)) :
    A.Able (ExceptT.mk (liftM x)) := by
  rintro ⟨p, w⟩ h
  obtain ⟨r, w', hr, h'⟩ := hx p w h
  exact ⟨r, (p, w'), ends_fallible.2 ⟨hr, rfl⟩, h'⟩

end

end Account

end XofConformance
