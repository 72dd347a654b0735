import Mathlib.Data.List.Induction
import Mathlib.Data.List.Nodup
import XofConformance.Proofs.Exchange.History

/-!
# Sessions

A client works with a pool in any way it likes: it waits for calls, hands calls over, sets
checkpoints and drains, and meanwhile the workers take turns. The ledger tells which calls it has
handed over and which of them since it drained last; the books of the pool agree with it after
every operation.

    Session env ops v v' → the books of v' agree with the ledger of ops  (Session.booked)
-/

namespace XofConformance

/-! ## Algorithm -/

/-- What a client, or a worker meanwhile, does with a pool. The action of a checkpoint may ask the
subject and change the client's state, but hands nothing over. -/
inductive Operation (κ : Type) (m : Type → Type)
  | transact (c : Call)
  | submit (c : Call) (deliver : List Bytes → κ → Except Fault κ)
  | checkpoint (action : κ → m (Except Fault Unit × κ))
  | drain
  | work (turns : List Nat)

/-- An action as an exchange. -/
def Operation.act {κ : Type} {m : Type → Type} [Monad m]
    (action : κ → m (Except Fault Unit × κ)) : Exchange κ m Unit :=
  ExceptT.mk fun p => do
    let (r, client) ← action p.client
    return (r, { p with client })

/-- Does an operation. -/
def Setting.perform {κ : Type} {m : Type → Type} [Monad m] (env : Setting κ m) :
    Operation κ m → Exchange κ m Unit
  | .transact c => do let _ ← env.transact c
  | .submit c deliver => env.submit c deliver
  | .checkpoint action => env.checkpoint (Operation.act action)
  | .drain => env.drain
  | .work turns => do set (← liftM (env.work turns (← get)))

/-- A call that was handed over. -/
structure Entry (κ : Type) where
  number : Nat
  call : Call
  deliver : List Bytes → κ → Except Fault κ

/-- The calls that a client has handed over, and those of them since it has drained last. -/
structure Ledger (κ : Type) where
  next : Nat
  handed : List (Entry κ) := []
  recent : List (Entry κ) := []

/-- The ledger after an operation. -/
def Ledger.enter {κ : Type} {m : Type → Type} (l : Ledger κ) : Operation κ m → Ledger κ
  | .submit call deliver =>
    let e : Entry κ := { number := l.next, call, deliver }
    { next := l.next + 1, handed := l.handed ++ [e], recent := l.recent ++ [e] }
  | .drain => { l with recent := [] }
  | _ => l

/-- The ledger of operations one after the other. -/
def Ledger.ofOperations {κ : Type} {m : Type → Type} (next : Nat) (ops : List (Operation κ m)) :
    Ledger κ := ops.foldl Ledger.enter { next }

section

variable {κ : Type} {m : Type → Type} [Monad m] {W : Type} [HasRuns m W] {env : Setting κ m}
  {p p' p'' : Pool κ} {w w' w'' : W} {l : Ledger κ} {op : Operation κ m}
  {ops : List (Operation κ m)}

/-- Operations one after the other, each with whatever it comes to. -/
inductive Session (env : Setting κ m) : List (Operation κ m) → Pool κ × W → Pool κ × W → Prop
  | start (v : Pool κ × W) : Session env [] v v
  | next {ops : List (Operation κ m)} {op : Operation κ m} {r : Except Fault Unit}
    {v v' v'' : Pool κ × W} : Session env ops v v' → Ends (env.perform op) v' r v'' →
    Session env (ops ++ [op]) v v''

/-! ## Books -/

/-- A call of the pool as an entry. -/
def Job.entry (job : Job κ) : Entry κ :=
  { number := job.number, call := job.call, deliver := job.deliver }

/-- The first failure of calls in the order in which they were handed over. -/
def Pool.firstFault (p : Pool κ) (entries : List (Entry κ)) : Option Fault :=
  entries.findSome? fun e => p.faultOf e.number

/-- The call was put to the subject and answered once, and delivered once if the answer counts. -/
def Entry.HasRun (env : Setting κ m) (p : Pool κ) (e : Entry κ) : Prop :=
  ∃ fault, Lived env e.call e.deliver (p.life e.number) (.ended fault)

/-- What the pool says agrees with the ledger: every call that was handed over waits, with a life
as far as it has come, or has run; and of the calls since the last draining, those that were
waited for have left their first failure. -/
structure Booked (env : Setting κ m) (l : Ledger κ) (p : Pool κ) : Prop where
  next : p.submitted = l.next
  numbers : ∀ e ∈ l.handed, e.number < l.next
  distinct : (l.handed.map Entry.number).Nodup
  suffix : l.recent <:+ l.handed
  history : ∀ step ∈ p.history, step.1 < l.next
  waiting : ∀ job ∈ p.waiting, Lived env job.call job.deliver (p.life job.number) job.progress
  split : ∃ done, l.recent = done ++ p.waiting.map Job.entry ∧ p.error = p.firstFault done
  hasRun : ∀ e ∈ l.handed, e ∈ p.waiting.map Job.entry ∨ e.HasRun env p

namespace Booked

theorem start {client : κ} {n : Nat} :
    Booked env { next := n } { client, submitted := n } where
  next := rfl
  numbers := fun _ h => by cases h
  distinct := List.nodup_nil
  suffix := List.suffix_refl _
  history := fun _ h => by cases h
  waiting := fun _ h => by cases h
  split := ⟨[], rfl, rfl⟩
  hasRun := fun _ h => by cases h

/-- Entries with one number are one. -/
theorem eq_of_number (h : Booked env l p) {e e' : Entry κ} (he : e ∈ l.handed)
    (he' : e' ∈ l.handed) (hn : e.number = e'.number) : e = e' :=
  List.inj_on_of_nodup_map h.distinct he he' hn

theorem entry_mem (h : Booked env l p) {job : Job κ} (hj : job ∈ p.waiting) :
    job.entry ∈ l.recent := by
  obtain ⟨done, hsplit, -⟩ := h.split
  rw [hsplit]
  exact List.mem_append_right _ (List.mem_map_of_mem hj)

theorem recent_distinct (h : Booked env l p) : (l.recent.map Entry.number).Nodup :=
  h.distinct.sublist (h.suffix.sublist.map _)

/-- Calls that wait at different positions have different numbers. -/
theorem number_ne (h : Booked env l p) {i j : Nat} {job job' : Job κ}
    (hi : p.waiting[i]? = some job) (hj : p.waiting[j]? = some job') (hij : i ≠ j) :
    job.number ≠ job'.number := by
  obtain ⟨done, hsplit, -⟩ := h.split
  have hnd := h.recent_distinct
  rw [hsplit, List.map_append, List.map_map] at hnd
  have hnd' : (p.waiting.map Job.number).Nodup := hnd.of_append_right
  obtain ⟨hlt, -⟩ := List.getElem?_eq_some_iff.1 hi
  intro he
  apply hij
  have hget : (p.waiting.map Job.number)[i]? = (p.waiting.map Job.number)[j]? := by
    rw [List.getElem?_map, List.getElem?_map, hi, hj, Option.map_some, Option.map_some, he]
  exact (List.getElem?_inj (by rw [List.length_map]; exact hlt) hnd').1 hget

/-- A call that was waited for has another number than one that waits. -/
theorem done_ne (h : Booked env l p) {done : List (Entry κ)}
    (hsplit : l.recent = done ++ p.waiting.map Job.entry) {e : Entry κ} (he : e ∈ done)
    {job : Job κ} (hj : job ∈ p.waiting) : e.number ≠ job.number := by
  have hnd := h.recent_distinct
  rw [hsplit, List.map_append, List.nodup_append] at hnd
  have hmem : job.number ∈ (p.waiting.map Job.entry).map Entry.number :=
    List.mem_map_of_mem (List.mem_map_of_mem hj)
  exact hnd.2.2 e.number (List.mem_map_of_mem he) job.number hmem

theorem firstFault_congr {entries : List (Entry κ)}
    (h : ∀ e ∈ entries, p'.life e.number = p.life e.number) :
    p'.firstFault entries = p.firstFault entries := by
  apply findSome?_congr
  intro e he
  unfold Pool.faultOf
  rw [h e he]

/-- A turn of a worker keeps the books. -/
theorem turn {position : Nat} (h : Booked env l p) (ht : Run (env.turn position p) w p' w') :
    Booked env l p' := by
  have hentries : p'.waiting.map Job.entry = p.waiting.map Job.entry :=
    (turn_sameCalls ht).map_eq fun _ _ => rfl
  rcases turn_cases ht with ⟨rfl, -, -⟩ | ⟨job, progress, client, hj, he, ha, rfl⟩
  · exact h
  have hmem := List.mem_of_getElem? hj
  have hlife : ∀ {n : Nat}, n ≠ job.number → Pool.life { p with
      client
      waiting := p.waiting.set position { job with progress }
      history := (job.number, progress) :: p.history } n = p.life n := by
    intro n hn
    rw [life_of_turn rfl, if_neg hn]
  have hown : Pool.life { p with
      client
      waiting := p.waiting.set position { job with progress }
      history := (job.number, progress) :: p.history } job.number =
        p.life job.number ++ [progress] := by
    rw [life_of_turn rfl, if_pos rfl]
  obtain ⟨done, hsplit, herror⟩ := h.split
  have hhanded : job.entry ∈ l.handed := h.suffix.subset (h.entry_mem hmem)
  refine ⟨h.next, h.numbers, h.distinct, h.suffix, fun step hs => ?_, fun job' hj' => ?_,
    ⟨done, by rw [hsplit, hentries], ?_⟩, fun e hm => ?_⟩
  · rcases List.mem_cons.1 hs with rfl | hs
    · exact h.numbers _ hhanded
    · exact h.history step hs
  · obtain ⟨k, hk⟩ := List.mem_iff_getElem?.1 hj'
    rw [List.getElem?_set] at hk
    split at hk
    · split at hk
      · cases hk
        rw [hown]
        exact (h.waiting job hmem).advance he ha
      · cases hk
    · next hne =>
      rw [hlife (h.number_ne hk hj (Ne.symm hne))]
      exact h.waiting job' (List.mem_of_getElem? hk)
  · rw [firstFault_congr fun e hm => hlife (h.done_ne hsplit hm hmem)]
    exact herror
  · by_cases hej : e.number = job.number
    · left
      rw [hentries, h.eq_of_number hm hhanded hej]
      exact List.mem_map_of_mem hmem
    · rcases h.hasRun e hm with hw | ⟨fault, hr⟩
      · left
        rw [hentries]
        exact hw
      · right
        exact ⟨fault, by rw [hlife hej]; exact hr⟩

theorem work {turns : List Nat} (h : Booked env l p) (hw : Run (env.work turns p) w p' w') :
    Booked env l p' :=
  work_keeps (I := fun q _ => Booked env l q) (fun hi ht => hi.turn ht) h hw

/-- What a client does with its own state is not in the books. -/
theorem client (h : Booked env l p) (client : κ) : Booked env l { p with client } :=
  ⟨h.next, h.numbers, h.distinct, h.suffix, h.history, h.waiting, h.split, h.hasRun⟩

/-- After the calls have been waited for, all have run, and the failure that counts is the first one
since the last draining. -/
theorem settle (hrelease : ∀ jobs, env.schedule.release jobs = jobs) (h : Booked env l p)
    (hs : Run (env.settle p) w p' w') :
    Booked env l p' ∧ p'.waiting = [] ∧ p'.error = p'.firstFault l.recent ∧
      ∀ e ∈ l.handed, e.HasRun env p' := by
  obtain ⟨turns, q, hw, hend, rfl⟩ := run_settle hs
  rw [hrelease] at hw
  have hq : Booked env l q := h.work hw
  obtain ⟨done, hsplit, herror⟩ := hq.split
  have hlived : ∀ job ∈ q.waiting, ∃ o, job.progress = .ended o ∧
      Lived env job.call job.deliver (q.life job.number) (.ended o) := by
    intro job hj
    obtain ⟨o, ho⟩ := Job.hasEnded_iff.1 (hend job hj)
    have hl := hq.waiting job hj
    rw [ho] at hl
    exact ⟨o, ho, hl⟩
  have hfirst : q.joined.error = q.firstFault l.recent := by
    have hwaiting : q.waiting.findSome? Job.fault? = q.firstFault (q.waiting.map Job.entry) := by
      unfold Pool.firstFault
      rw [List.findSome?_map]
      apply findSome?_congr
      intro job hj
      obtain ⟨o, ho, hl⟩ := hlived job hj
      rw [Job.fault?_eq, ho]
      exact hl.findSome?_fault.symm
    have hor : q.joined.error = q.error.or (q.waiting.findSome? Job.fault?) := by
      unfold Pool.joined
      cases q.error <;> rfl
    rw [hor, herror, hwaiting, hsplit]
    unfold Pool.firstFault
    rw [List.findSome?_append]
  have hrun : ∀ e ∈ l.handed, e.HasRun env q := by
    intro e he
    rcases hq.hasRun e he with hm | hr
    · obtain ⟨job, hj, rfl⟩ := List.mem_map.1 hm
      obtain ⟨o, -, hl⟩ := hlived job hj
      exact ⟨o, hl⟩
    · exact hr
  refine ⟨⟨hq.next, hq.numbers, hq.distinct, hq.suffix, hq.history, fun _ hj => ?_,
    ⟨l.recent, ?_, hfirst⟩, fun e he => Or.inr (hrun e he)⟩, rfl, hfirst, hrun⟩
  · cases hj
  · exact (List.append_nil _).symm

/-- Handing a call over enters it into the books. -/
theorem submit (hlost : ∀ n, env.schedule.lost n = false) {c : Call}
    {deliver : List Bytes → κ → Except Fault κ} (h : Booked env l p) :
    Booked env (l.enter (.submit c deliver : Operation κ m)) (env.schedule.accept c deliver p) := by
  unfold Schedule.accept
  rw [hlost, h.next]
  have hfresh : ∀ e ∈ l.handed, e.number ≠ l.next := fun e he => Nat.ne_of_lt (h.numbers e he)
  have hempty : p.life l.next = [] :=
    Pool.life_of_history fun step hs => Nat.ne_of_lt (h.history step hs)
  obtain ⟨done, hsplit, herror⟩ := h.split
  refine ⟨rfl, fun e he => ?_, ?_, ?_, fun step hs => ?_, fun job hj => ?_,
    ⟨done, ?_, herror⟩, fun e he => ?_⟩
  · rcases List.mem_append.1 he with he | he
    · exact Nat.lt_succ_of_lt (h.numbers e he)
    · rw [List.mem_singleton.1 he]
      exact Nat.lt_succ_self _
  · show ((l.handed ++ [_]).map Entry.number).Nodup
    rw [List.map_append, List.nodup_append]
    refine ⟨h.distinct, List.nodup_singleton _, fun n hn n' hn' => ?_⟩
    obtain ⟨e, he, rfl⟩ := List.mem_map.1 hn
    rw [List.mem_singleton.1 hn']
    exact hfresh e he
  · obtain ⟨earlier, hsuffix⟩ := h.suffix
    refine ⟨earlier, ?_⟩
    show earlier ++ (l.recent ++ _) = l.handed ++ _
    rw [← hsuffix, List.append_assoc]
  · exact Nat.lt_succ_of_lt (h.history step hs)
  · rcases List.mem_append.1 hj with hj | hj
    · exact h.waiting job hj
    · rw [List.mem_singleton.1 hj]
      show Lived env c deliver (p.life l.next) .queued
      rw [hempty]
      exact .queued
  · show l.recent ++ _ = done ++ (p.waiting ++ _).map Job.entry
    rw [hsplit, List.map_append, List.append_assoc]
    rfl
  · show e ∈ (p.waiting ++ _).map Job.entry ∨ _
    rw [List.map_append]
    rcases List.mem_append.1 he with he | he
    · rcases h.hasRun e he with hw | hr
      · exact Or.inl (List.mem_append_left _ hw)
      · exact Or.inr hr
    · exact Or.inl (List.mem_append_right _ he)

/-- Draining begins a new page. -/
theorem forget (h : Booked env l p) (hp : p.waiting = []) :
    Booked env (l.enter (.drain : Operation κ m)) { p with error := none } :=
  ⟨h.next, h.numbers, h.distinct, List.nil_suffix, h.history, h.waiting,
    ⟨[], by rw [hp]; rfl, rfl⟩, h.hasRun⟩

end Booked

/-! ## Operations -/

theorem ends_act {action : κ → m (Except Fault Unit × κ)} {r : Except Fault Unit} :
    Ends (Operation.act action) (p, w) r (p', w') ↔
      ∃ client, Run (action p.client) w (r, client) w' ∧ p' = { p with client } := by
  show Run (action p.client >>= fun a => pure (a.1, { p with client := a.2 })) w (r, p') w' ↔ _
  rw [run_bind]
  constructor
  · rintro ⟨⟨r', client⟩, v, ha, hp⟩
    obtain ⟨he, rfl⟩ := run_pure.1 hp
    cases he
    exact ⟨client, ha, rfl⟩
  · rintro ⟨client, ha, rfl⟩
    exact ⟨(r, client), w', ha, run_pure.2 ⟨rfl, rfl⟩⟩

variable [LawfulMonad m]

theorem ends_perform_transact {c : Call} {r : Except Fault Unit}
    (h : Ends (env.perform (.transact c)) (p, w) r (p', w')) : p' = p := by
  rcases ends_bind.1 h with ⟨f, ha, -⟩ | ⟨results, ⟨p₁, w₁⟩, ha, hp⟩
  · exact (ends_transact.1 ha).2
  · obtain ⟨-, rfl⟩ := ends_transact.1 ha
    obtain ⟨-, he⟩ := ends_pure.1 hp
    cases he
    rfl

theorem ends_perform_work {turns : List Nat} {r : Except Fault Unit}
    (h : Ends (env.perform (.work turns)) (p, w) r (p', w')) :
    Run (env.work turns p) w p' w' := by
  have hdo : Ends (get >>= fun q => (liftM (env.work turns q) : Exchange κ m (Pool κ)) >>= set)
      (p, w) r (p', w') := h
  rw [ends_get_bind, ends_effect_bind] at hdo
  obtain ⟨q, v, hw, hset⟩ := hdo
  obtain ⟨-, rfl, rfl⟩ := ends_set.1 hset
  exact hw

/-- Every operation keeps the books. -/
theorem Booked.perform (hrelease : ∀ jobs, env.schedule.release jobs = jobs)
    (hlost : ∀ n, env.schedule.lost n = false) {r : Except Fault Unit} (h : Booked env l p)
    (hop : Ends (env.perform op) (p, w) r (p', w')) : Booked env (l.enter op) p' := by
  cases op with
  | transact c =>
    rw [ends_perform_transact hop]
    exact h
  | submit c deliver =>
    obtain ⟨-, rfl, -⟩ := ends_submit.1 hop
    exact h.submit hlost
  | checkpoint action =>
    obtain ⟨p₁, w₁, hs, hrest⟩ := ends_checkpoint.1 hop
    obtain ⟨hb, -⟩ := h.settle hrelease hs
    rcases hrest with ⟨f, -, -, rfl, -⟩ | ⟨-, ha⟩
    · exact hb
    · obtain ⟨client, -, rfl⟩ := ends_act.1 ha
      exact hb.client client
  | drain =>
    obtain ⟨q, hs, -, rfl⟩ := ends_drain.1 hop
    obtain ⟨hb, hnone, -⟩ := h.settle hrelease hs
    exact hb.forget hnone
  | work turns => exact h.work (ends_perform_work hop)

/-- The books agree with the ledger of a session. -/
theorem Session.booked (hrelease : ∀ jobs, env.schedule.release jobs = jobs)
    (hlost : ∀ n, env.schedule.lost n = false) {client : κ} {n : Nat} {v : Pool κ × W}
    (h : Session env ops ({ client, submitted := n }, w) v) :
    Booked env (Ledger.ofOperations n ops) v.1 := by
  generalize hv : (({ client, submitted := n }, w) : Pool κ × W) = v₀ at h
  induction h with
  | start v =>
    subst hv
    exact Booked.start
  | next hs hop ih =>
    unfold Ledger.ofOperations
    rw [List.foldl_append]
    exact (ih hv).perform hrelease hlost hop

/-! ## Failures that stay -/

/-- A failure that counts is kept until the client drains. -/
theorem Session.keeps_error {f : Fault} {v v' : Pool κ × W} (h : Session env ops v v')
    (hops : ∀ op ∈ ops, op ≠ .drain) (he : v.1.error = some f) : v'.1.error = some f := by
  induction h with
  | start => exact he
  | @next ops op r v v₁ v₂ hs hop ih =>
    have hkept := ih (fun o ho => hops o (List.mem_append_left _ ho)) he
    have hdrain := hops op (List.mem_append_right _ (List.mem_singleton.2 rfl))
    obtain ⟨p₁, w₁⟩ := v₁
    obtain ⟨p₂, w₂⟩ := v₂
    cases op with
    | transact c =>
      rw [ends_perform_transact hop]
      exact hkept
    | submit c deliver =>
      obtain ⟨-, rfl, -⟩ := ends_submit.1 hop
      exact hkept
    | checkpoint action =>
      obtain ⟨p', w', hs, hrest⟩ := ends_checkpoint.1 hop
      have hp' := settle_error hs hkept
      rcases hrest with ⟨f', -, -, rfl, -⟩ | ⟨hnone, -⟩
      · exact hp'
      · rw [hp'] at hnone
        cases hnone
    | drain => exact absurd rfl hdrain
    | work turns => exact (work_sameCalls (ends_perform_work hop)).error.trans hkept

/-! ## Top theorem -/

/-- What a client can rely on at any point of a session, given the ledger of the session. -/
structure Promises (env : Setting κ m) (l : Ledger κ) (p : Pool κ) (w : W) : Prop where
  /-- When a checkpoint finishes, every call handed over has run. If none of those since the last
  draining has failed, the action was done, and whatever it came to is not recorded; else the
  first failure is raised and the action was not done. -/
  checkpoint {action : κ → m (Except Fault Unit × κ)} {r : Except Fault Unit} {p'' : Pool κ}
    {w'' : W} : Ends (env.perform (.checkpoint action)) (p, w) r (p'', w'') →
    ∃ p' w', Run (env.settle p) w p' w' ∧ (∀ e ∈ l.handed, e.HasRun env p') ∧
      match p'.firstFault l.recent with
      | some f => r = .error f ∧ p'' = p' ∧ w'' = w'
      | none => ∃ client, Run (action p'.client) w' (r, client) w'' ∧
        p'' = { p' with client } ∧ p''.error = none
  /-- The failure that a checkpoint raises is raised by every later one until the client drains. -/
  again {action action' : κ → m (Except Fault Unit × κ)} {r r' : Except Fault Unit}
    {p' : Pool κ} {w' : W} {f : Fault} {ops : List (Operation κ m)} {v v' : Pool κ × W} :
    Ends (env.perform (.checkpoint action)) (p, w) r (p', w') →
    p'.firstFault l.recent = some f → Session env ops (p', w') v → (∀ op ∈ ops, op ≠ .drain) →
    Ends (env.perform (.checkpoint action')) v r' v' → r' = .error f
  /-- When draining finishes, every call handed over has run, the first failure since the last
  draining is raised, and nothing is left of it: draining again raises nothing. -/
  drain {r : Except Fault Unit} {p' : Pool κ} {w' : W} :
    Ends (env.perform .drain) (p, w) r (p', w') →
    (∀ e ∈ l.handed, e.HasRun env p') ∧ r = raised (p'.firstFault l.recent) ∧ p'.IsIdle ∧
      ∀ {r' : Except Fault Unit} {v : Pool κ × W},
        Ends (env.perform .drain) (p', w') r' v → r' = .ok ()
  /-- Waiting for a call leaves the pool as it is, whatever the call comes to. -/
  transact {c : Call} {r : Except Fault Unit} {p' : Pool κ} {w' : W} :
    Ends (env.perform (.transact c)) (p, w) r (p', w') → p' = p
  /-- A failure that is recorded is the first one of the calls that were handed over since the last
  draining and waited for since. -/
  recorded : ∃ done, done <+: l.recent ∧ p.error = p.firstFault done

theorem Booked.checkpoint (hrelease : ∀ jobs, env.schedule.release jobs = jobs)
    (h : Booked env l p) {action : κ → m (Except Fault Unit × κ)} {r : Except Fault Unit}
    (hop : Ends (env.perform (.checkpoint action)) (p, w) r (p'', w'')) :
    ∃ p' w', Run (env.settle p) w p' w' ∧ (∀ e ∈ l.handed, e.HasRun env p') ∧
      match p'.firstFault l.recent with
      | some f => r = .error f ∧ p'' = p' ∧ w'' = w'
      | none => ∃ client, Run (action p'.client) w' (r, client) w'' ∧
        p'' = { p' with client } ∧ p''.error = none := by
  obtain ⟨p', w', hs, hrest⟩ := ends_checkpoint.1 hop
  obtain ⟨-, -, herror, hrun⟩ := h.settle hrelease hs
  refine ⟨p', w', hs, hrun, ?_⟩
  rw [← herror]
  rcases hrest with ⟨f, hf, hr, hp, hw⟩ | ⟨hnone, hact⟩
  · rw [hf]
    exact ⟨hr, hp, hw⟩
  · obtain ⟨client, ha, rfl⟩ := ends_act.1 hact
    simp only [hnone]
    exact ⟨client, ha, rfl, trivial⟩

theorem Booked.again (hrelease : ∀ jobs, env.schedule.release jobs = jobs) (h : Booked env l p)
    {action action' : κ → m (Except Fault Unit × κ)} {r r' : Except Fault Unit} {f : Fault}
    {v v' : Pool κ × W} (hop : Ends (env.perform (.checkpoint action)) (p, w) r (p', w'))
    (hfault : p'.firstFault l.recent = some f) (hs : Session env ops (p', w') v)
    (hops : ∀ op ∈ ops, op ≠ .drain)
    (hop' : Ends (env.perform (.checkpoint action')) v r' v') : r' = .error f := by
  -- the failure was recorded when it was raised, and is kept
  have hrecorded : p'.error = some f := by
    obtain ⟨p₁, w₁, hsettle, hrest⟩ := ends_checkpoint.1 hop
    obtain ⟨-, -, herror, -⟩ := h.settle hrelease hsettle
    rcases hrest with ⟨_, -, -, rfl, -⟩ | ⟨-, hact⟩
    · exact herror.trans hfault
    · obtain ⟨client, -, rfl⟩ := ends_act.1 hact
      exact herror.trans hfault
  have hkept := hs.keeps_error hops hrecorded
  obtain ⟨q, u⟩ := v
  obtain ⟨q', u'⟩ := v'
  obtain ⟨p₂, w₂, hsettle, hrest⟩ := ends_checkpoint.1 hop'
  have herror := settle_error hsettle hkept
  rcases hrest with ⟨f', hf', hr, -⟩ | ⟨hnone, -⟩
  · rw [herror] at hf'
    cases hf'
    exact hr
  · rw [herror] at hnone
    cases hnone

theorem Booked.drain (hrelease : ∀ jobs, env.schedule.release jobs = jobs) (h : Booked env l p)
    {r : Except Fault Unit} (hop : Ends (env.perform .drain) (p, w) r (p', w')) :
    (∀ e ∈ l.handed, e.HasRun env p') ∧ r = raised (p'.firstFault l.recent) ∧ p'.IsIdle ∧
      ∀ {r' : Except Fault Unit} {v : Pool κ × W},
        Ends (env.perform .drain) (p', w') r' v → r' = .ok () := by
  have hfaithful : env.schedule.Faithful := fun jobs => by rw [hrelease]
  have hidle : p'.IsIdle := drain_idle hop
  obtain ⟨q, hs, hr, rfl⟩ := ends_drain.1 hop
  obtain ⟨-, -, herror, hrun⟩ := h.settle hrelease hs
  refine ⟨hrun, ?_, hidle, fun hagain => (drain_of_idle hfaithful hidle hagain).1⟩
  rw [hr, herror]
  rfl

/-- A client that begins with an idle pool can rely on the promises after any operations, whoever
takes the turns between them and while it waits. -/
theorem Session.keeps_promises (hrelease : ∀ jobs, env.schedule.release jobs = jobs)
    (hlost : ∀ n, env.schedule.lost n = false) {client : κ} {n : Nat}
    (h : Session env ops ({ client, submitted := n }, w) (p, w')) :
    Promises env (Ledger.ofOperations n ops) p w' := by
  have hb : Booked env (Ledger.ofOperations n ops) p := h.booked hrelease hlost
  obtain ⟨done, hsplit, herror⟩ := hb.split
  exact {
    checkpoint := fun hop => hb.checkpoint hrelease hop
    again := fun hop hfault hs hops hop' => hb.again hrelease hop hfault hs hops hop'
    drain := fun hop => hb.drain hrelease hop
    transact := ends_perform_transact
    recorded := ⟨done, ⟨_, hsplit.symm⟩, herror⟩ }

end

/-- With a subject that is a function, every session can be held. -/
theorem Session.of_operations {κ : Type} (env : Setting κ Id) (ops : List (Operation κ Id))
    (p : Pool κ) :
    Session env ops (p, ()) (ops.foldl (fun q op => (Id.run ((env.perform op).run q)).2) p, ()) := by
  induction ops using List.reverseRecOn with
  | nil => exact .start _
  | append_singleton ops op ih =>
    rw [List.foldl_append]
    exact .next ih rfl

/-- A call that fails is handed over, a worker puts it to the subject, and another call is handed
over. -/
theorem Session.failing_keeps_promises :
    let env : Setting Unit Id :=
      { subject := fun c => if c.args = [] then .error (.general "down") else .ok c.args }
    let ops : List (Operation Unit Id) :=
      [.submit { op := "echo", expected := 0, args := [] } fun _ _ => .ok (), .work [0],
        .submit { op := "echo", expected := 1, args := [[1]] } fun _ _ => .ok ()]
    let p := ops.foldl (fun q op => (Id.run ((env.perform op).run q)).2) { client := () }
    Promises env (Ledger.ofOperations 0 ops) p () := by
  intro env ops p
  exact keeps_promises (fun _ => rfl) (fun _ => rfl) (of_operations env ops { client := () })

end XofConformance
