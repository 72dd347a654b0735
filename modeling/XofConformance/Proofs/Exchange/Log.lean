import XofConformance.Proofs.Exchange.Account
import XofConformance.Proofs.Lists
import Mathlib.Data.List.Flatten
import Mathlib.Data.List.Perm.Subperm

/-!
# The log of a subject

What a subject sees of an exchange: when each call is given to it, and when it has answered it. A
pool may be run with a subject that keeps such a log. A call that a worker takes from its first to
its last step is started once and finished once, so when the calls have been waited for, the log
tells each of them once, whoever takes the turns.

    the calls started ++ the calls that are still to start ~ all calls        (Balanced)
    Run (env.logged.settle p) (before, w) p' (after, w') → the log between serves the calls
                                                                              (settle_serves)
-/

namespace XofConformance

/-! ## Logs -/

/-- What a subject sees of a call. -/
inductive Event
  /-- The call is given to the subject. -/
  | start (c : Call)
  /-- The subject has answered the call. -/
  | finish (c : Call) (o : Outcome)

/-- What a subject has seen, the first event first. -/
abbrev Log := List Event

namespace Log

/-- The calls that were given to the subject. -/
def started (l : Log) : List Call :=
  l.filterMap fun
    | .start c => some c
    | .finish _ _ => none

/-- The calls that the subject has answered. -/
def finished (l : Log) : List Call :=
  l.filterMap fun
    | .start _ => none
    | .finish c _ => some c

/-- No call of the log has failed. -/
def Succeeds (l : Log) : Prop := ∀ c o, .finish c o ∈ l → ∃ results, c.settle o = .ok results

/-- Every one of the calls is started once and finished once, and at no time have calls been
finished that were not started. -/
structure Serves (cs : List Call) (l : Log) : Prop where
  started : l.started.Perm cs
  finished : l.finished.Perm cs
  inOrder : ∀ early : Log, early <+: l → early.finished.Subperm early.started

variable {l l' : Log} {c : Call} {o : Outcome}

theorem succeeds_nil : Succeeds [] := fun _ _ hm => absurd hm List.not_mem_nil

theorem started_append : (l ++ l').started = l.started ++ l'.started := List.filterMap_append

theorem finished_append : (l ++ l').finished = l.finished ++ l'.finished := List.filterMap_append

theorem started_start : started [.start c] = [c] := rfl

theorem finished_start : finished [.start c] = [] := rfl

theorem started_finish : started [.finish c o] = [] := rfl

theorem finished_finish : finished [.finish c o] = [c] := rfl

end Log

/-! ## Subjects that keep a log -/

section

variable {m : Type → Type} [Monad m] {α : Type}

/-- An effect that puts an event on the log when it is done. -/
def Log.recorded (x : m α) (event : α → Event) : StateT Log m α := do
  let a ← StateT.lift x
  modify (· ++ [event a])
  return a

/-- The surroundings of an exchange with a subject that keeps a log. -/
def Setting.logged {κ : Type} (env : Setting κ m) : Setting κ (StateT Log m) where
  subject c := do
    modify (· ++ [.start c])
    Log.recorded (env.subject c) (.finish c)
  schedule := env.schedule
  put c := Log.recorded (env.put c) fun _ => .start c
  answer ticket c := Log.recorded (env.answer ticket c) (.finish c)

variable {W : Type} [HasRuns m W] {κ : Type} {env : Setting κ m} {l l' : Log} {w w' : W}

theorem Log.run_recorded {x : m α} {event : α → Event} {a : α} :
    Run (Log.recorded x event) (l, w) a (l', w') ↔ Run x w a w' ∧ l' = l ++ [event a] := by
  unfold Log.recorded
  rw [run_bind]
  constructor
  · rintro ⟨b, ⟨l₁, w₁⟩, hx, h⟩
    obtain ⟨hx, rfl⟩ := run_liftState.1 hx
    obtain ⟨_, _, hm, hp⟩ := run_bind.1 h
    obtain rfl := run_modify.1 hm
    obtain ⟨rfl, he⟩ := run_pure.1 hp
    cases he
    exact ⟨hx, rfl⟩
  · rintro ⟨hx, rfl⟩
    exact ⟨a, (l, w'), run_liftState.2 ⟨hx, rfl⟩,
      run_bind.2 ⟨⟨⟩, (l ++ [event a], w'), run_modify.2 rfl, run_pure.2 ⟨rfl, rfl⟩⟩⟩

theorem run_logged_subject {c : Call} {o : Outcome} :
    Run (env.logged.subject c) (l, w) o (l', w') ↔
      Run (env.subject c) w o w' ∧ l' = l ++ [.start c, .finish c o] := by
  show Run (modify _ >>= fun _ => Log.recorded (env.subject c) (.finish c)) (l, w) o (l', w') ↔ _
  rw [run_bind, show l ++ [.start c, .finish c o] = (l ++ [.start c]) ++ [.finish c o] from
    List.append_cons l _ _]
  constructor
  · rintro ⟨_, _, hm, h⟩
    obtain rfl := run_modify.1 hm
    exact Log.run_recorded.1 h
  · intro h
    exact ⟨⟨⟩, (l ++ [.start c], w), run_modify.2 rfl, Log.run_recorded.2 h⟩

/-- A log that only grows from some point on is an account of the answers after it. -/
def Account.logged (env : Setting κ m) (before : Log) : Account env.logged where
  Sound v := ∃ l, v.1 = before ++ l
  Posted _ _ _ := True
  Given v c o := ∃ l, v.1 = before ++ l ∧ .finish c o ∈ l
  put {v v' c t} hs h := by
    obtain ⟨l, hl⟩ := hs
    obtain ⟨-, hv⟩ := Log.run_recorded.1 h
    rw [hl, List.append_assoc] at hv
    refine ⟨⟨⟨_, hv⟩, id, fun ⟨l', hl', hm⟩ => ⟨_, hv, List.mem_append_left _ ?_⟩⟩, trivial⟩
    rwa [List.append_cancel_left (hl.symm.trans hl')]
  answer {v v' c t o} hs _ h := by
    obtain ⟨l, hl⟩ := hs
    obtain ⟨-, hv⟩ := Log.run_recorded.1 h
    rw [hl, List.append_assoc] at hv
    refine ⟨⟨⟨_, hv⟩, id, fun ⟨l', hl', hm⟩ => ⟨_, hv, List.mem_append_left _ ?_⟩⟩, _, hv, ?_⟩
    · rwa [List.append_cancel_left (hl.symm.trans hl')]
    · exact List.mem_append_right _ List.mem_cons_self
  ask {v v' c o} hs h := by
    obtain ⟨l, hl⟩ := hs
    obtain ⟨-, hv⟩ := run_logged_subject.1 h
    rw [hl, List.append_assoc] at hv
    refine ⟨⟨⟨_, hv⟩, id, fun ⟨l', hl', hm⟩ => ⟨_, hv, List.mem_append_left _ ?_⟩⟩, _, hv, ?_⟩
    · rwa [List.append_cancel_left (hl.symm.trans hl')]
    · exact List.mem_append_right _ (List.mem_cons_of_mem _ List.mem_cons_self)

end

/-! ## Calls on their way -/

section

variable {κ : Type}

/-- The call of a job that has not been given to the subject yet. -/
def Job.toStart (job : Job κ) : List Call :=
  match job.progress with
  | .queued => [job.call]
  | _ => []

/-- The call of a job that the subject has not answered yet. -/
def Job.toFinish (job : Job κ) : List Call :=
  match job.progress with
  | .queued | .posted _ => [job.call]
  | _ => []

theorem Job.toStart_sublist (job : Job κ) : job.toStart.Sublist job.toFinish := by
  unfold toStart toFinish
  cases job.progress with
  | queued => exact .refl _
  | posted _ | answered _ | ended _ => exact List.nil_sublist _

theorem Job.toFinish_of_hasEnded {job : Job κ} (h : job.hasEnded = true) : job.toFinish = [] := by
  obtain ⟨f, hf⟩ := Job.hasEnded_iff.1 h
  unfold toFinish
  rw [hf]

theorem Job.toStart_of_hasEnded {job : Job κ} (h : job.hasEnded = true) : job.toStart = [] := by
  have hsub := job.toStart_sublist
  rw [Job.toFinish_of_hasEnded h] at hsub
  exact List.sublist_nil.1 hsub

/-- What the log tells of calls, together with what the jobs still have to do, is all of them. A
call that has failed is the call of a job that tells so. -/
structure Balanced (cs : List Call) (p : Pool κ) (l : Log) : Prop where
  started : (l.started ++ p.waiting.flatMap Job.toStart).Perm cs
  finished : (l.finished ++ p.waiting.flatMap Job.toFinish).Perm cs
  inOrder : ∀ early : Log, early <+: l → early.finished.Subperm early.started
  succeeds : (∀ job ∈ p.waiting, job.fault? = none) → l.Succeeds

variable {cs : List Call} {p p' : Pool κ} {l : Log} {job : Job κ}

/-- As long as the balance holds, no more calls are finished than are started. -/
theorem Balanced.finished_subperm {begun done : List Call}
    (hs : (begun ++ p.waiting.flatMap Job.toStart).Perm cs)
    (hf : (done ++ p.waiting.flatMap Job.toFinish).Perm cs) : done.Subperm begun := by
  have hsub : (p.waiting.flatMap Job.toStart).Sublist (p.waiting.flatMap Job.toFinish) :=
    List.Sublist.flatMap_right _ fun job _ => job.toStart_sublist
  have hle : (done ++ p.waiting.flatMap Job.toStart).Subperm
      (begun ++ p.waiting.flatMap Job.toStart) :=
    (hsub.append_left done).subperm.trans (hf.trans hs.symm).subperm
  exact (List.subperm_append_right _).1 hle

/-- Before a worker has taken up any of the calls, the log tells nothing. -/
theorem balanced_of_queued (hcalls : (p.waiting.map Job.call).Perm cs)
    (hq : ∀ job ∈ p.waiting, job.progress = .queued) : Balanced cs p [] := by
  have hstart : p.waiting.flatMap Job.toStart = p.waiting.map Job.call := by
    rw [List.map_eq_flatMap]
    exact List.flatMap_congr fun job hj => by rw [Job.toStart, hq job hj]
  have hfinish : p.waiting.flatMap Job.toFinish = p.waiting.map Job.call := by
    rw [List.map_eq_flatMap]
    exact List.flatMap_congr fun job hj => by rw [Job.toFinish, hq job hj]
  refine ⟨?_, ?_, fun early he => ?_, fun _ => Log.succeeds_nil⟩
  · rw [hstart]
    exact hcalls
  · rw [hfinish]
    exact hcalls
  · rw [List.prefix_nil.1 he]
    exact List.Subperm.refl _

/-- When all calls have ended, the log tells each of them once. -/
theorem Balanced.serves_of_ended (h : Balanced cs p l)
    (hend : ∀ job ∈ p.waiting, job.hasEnded = true) : l.Serves cs := by
  have hstart : p.waiting.flatMap Job.toStart = [] :=
    List.flatMap_eq_nil_iff.2 fun job hj => Job.toStart_of_hasEnded (hend job hj)
  have hfinish : p.waiting.flatMap Job.toFinish = [] :=
    List.flatMap_eq_nil_iff.2 fun job hj => Job.toFinish_of_hasEnded (hend job hj)
  refine ⟨?_, ?_, h.inOrder⟩
  · have hs := h.started
    rwa [hstart, List.append_nil] at hs
  · have hf := h.finished
    rwa [hfinish, List.append_nil] at hf

end

/-! ## The workers and the log -/

section

variable {κ : Type} {m : Type → Type} [Monad m] {W : Type} [HasRuns m W] {env : Setting κ m}
  {cs : List Call} {p p' : Pool κ} {before after l : Log} {w w' : W}

/-- A step of a worker puts at most one event on the log, and takes its call off what the job still
has to do. -/
theorem advance_logged {job : Job κ} {client client' : κ} {progress : Progress}
    (h : Run (env.logged.advance job client) (l, w) (progress, client') (after, w')) :
    ∃ events : Log, after = l ++ events ∧ events.length ≤ 1 ∧
      events.started ++ Job.toStart { job with progress } = job.toStart ∧
      events.finished ++ Job.toFinish { job with progress } = job.toFinish ∧
      (Job.fault? { job with progress } = none → events.Succeeds) := by
  rcases advance_cases h with ⟨hp, -, t, ht, rfl⟩ | ⟨t, o, hp, -, ho, hr⟩ | ⟨rs, hp, he, hr⟩ |
    ⟨f, hp, rfl, -, he⟩
  · obtain ⟨-, rfl⟩ := Log.run_recorded.1 ht
    refine ⟨[.start job.call], rfl, Nat.le_refl _, ?_, ?_, fun _ c o hm => ?_⟩
    · rw [Log.started_start, Job.toStart, Job.toStart, hp]
      rfl
    · rw [Log.finished_start, Job.toFinish, Job.toFinish, hp]
      rfl
    · cases List.mem_singleton.1 hm
  · obtain ⟨-, rfl⟩ := Log.run_recorded.1 ho
    refine ⟨[.finish job.call o], rfl, Nat.le_refl _, ?_, ?_, fun hf c o' hm => ?_⟩
    · rw [Log.started_finish, Job.toStart, Job.toStart, hp]
      rcases hr with ⟨rs, -, rfl⟩ | ⟨f, -, rfl⟩ <;> rfl
    · rw [Log.finished_finish, Job.toFinish, Job.toFinish, hp]
      rcases hr with ⟨rs, -, rfl⟩ | ⟨f, -, rfl⟩ <;> rfl
    · cases List.mem_singleton.1 hm
      rcases hr with ⟨rs, hs, -⟩ | ⟨f, -, rfl⟩
      · exact ⟨rs, hs⟩
      · cases hf
  · cases he
    refine ⟨[], (List.append_nil _).symm, Nat.zero_le _, ?_, ?_, fun _ => Log.succeeds_nil⟩
    · rw [Job.toStart, Job.toStart, hp]
      rcases hr with ⟨-, rfl⟩ | ⟨f, -, -, rfl⟩ <;> rfl
    · rw [Job.toFinish, Job.toFinish, hp]
      rcases hr with ⟨-, rfl⟩ | ⟨f, -, -, rfl⟩ <;> rfl
  · cases he
    refine ⟨[], (List.append_nil _).symm, Nat.zero_le _, ?_, ?_, fun _ => Log.succeeds_nil⟩
    · rw [Job.toStart, Job.toStart, hp]
      rfl
    · rw [Job.toFinish, Job.toFinish, hp]
      rfl

/-- A turn keeps the balance. -/
theorem turn_balanced {position : Nat} (h : Balanced cs p l)
    (ht : Run (env.logged.turn position p) (before ++ l, w) p' (after, w')) :
    ∃ l', after = before ++ l' ∧ Balanced cs p' l' := by
  rcases turn_cases ht with ⟨rfl, he, -⟩ | ⟨job, progress, client, hj, hend, ha, rfl⟩
  · cases he
    exact ⟨l, rfl, h⟩
  obtain ⟨events, rfl, hlen, hstart, hfinish, hfault⟩ := advance_logged ha
  have hstarted : ((l ++ events).started ++
      (p.waiting.set position { job with progress }).flatMap Job.toStart).Perm cs := by
    rw [Log.started_append, List.append_assoc]
    exact ((flatMap_set_perm hj hstart).append_left _).trans h.started
  have hfinished : ((l ++ events).finished ++
      (p.waiting.set position { job with progress }).flatMap Job.toFinish).Perm cs := by
    rw [Log.finished_append, List.append_assoc]
    exact ((flatMap_set_perm hj hfinish).append_left _).trans h.finished
  refine ⟨l ++ events, List.append_assoc .., hstarted, hfinished, fun early he => ?_,
    fun hnone => ?_⟩
  · -- an earlier log is one from before the turn, or the whole log
    have hcases : early = l ++ events ∨ early <+: l := by
      cases events with
      | nil => exact Or.inr (by rwa [List.append_nil] at he)
      | cons e rest =>
        obtain rfl : rest = [] := List.length_eq_zero_iff.1 (by
          rw [List.length_cons] at hlen
          omega)
        exact List.prefix_concat_iff.1 he
    rcases hcases with rfl | he
    · exact Balanced.finished_subperm (p := { p with waiting := _ }) hstarted hfinished
    · exact h.inOrder early he
  · have hold : ∀ job' ∈ p.waiting, job'.fault? = none := by
      intro job' hm
      by_cases hsame : job' = job
      · subst hsame
        unfold Job.hasEnded at hend
        unfold Job.fault?
        split at hend
        · cases hend
        · rfl
      · exact hnone job' (mem_set_of_ne hj hm hsame)
    intro c o hm
    rcases List.mem_append.1 hm with hm | hm
    · exact h.succeeds hold c o hm
    · refine hfault (hnone _ (List.mem_of_getElem? (i := position) ?_)) c o hm
      exact List.getElem?_set_self (List.getElem?_eq_some_iff.1 hj).1

/-- When calls that no worker has taken up have been waited for, the log tells each of them once,
and if no failure counts, none has failed. -/
theorem settle_serves (hf : env.schedule.Faithful) (hq : ∀ job ∈ p.waiting, job.progress = .queued)
    (hcalls : p.waiting.map Job.call = cs)
    (h : Run (env.logged.settle p) (before, w) p' (after, w')) :
    ∃ l, after = before ++ l ∧ l.Serves cs ∧ (p'.error = none → l.Succeeds) := by
  obtain ⟨turns, q, hw, hend, rfl⟩ := run_settle h
  have hrelease := hf p.waiting
  have hstart : Balanced cs { p with waiting := env.schedule.release p.waiting } [] :=
    balanced_of_queued (hcalls ▸ hrelease.map Job.call) fun job hj => hq job (hrelease.mem_iff.1 hj)
  obtain ⟨l, rfl, hl⟩ := work_keeps
    (I := fun (q : Pool κ) (v : Log × W) => ∃ l, v.1 = before ++ l ∧ Balanced cs q l)
    (fun {_ _ _ v _} hi ht => by
      obtain ⟨l, hv, hl⟩ := hi
      obtain ⟨v₁, v₂⟩ := v
      obtain rfl : v₁ = before ++ l := hv
      exact turn_balanced hl ht)
    ⟨[], (List.append_nil _).symm, hstart⟩ hw
  refine ⟨l, rfl, hl.serves_of_ended hend, fun hnone => hl.succeeds ?_⟩
  have hfault : q.waiting.findSome? Job.fault? = none := by
    have herror : (q.error <|> q.waiting.findSome? Job.fault?) = none := hnone
    cases he : q.error with
    | none =>
      rw [he] at herror
      exact herror
    | some f =>
      rw [he] at herror
      cases herror
  exact List.findSome?_eq_none_iff.1 hfault

end

end XofConformance
