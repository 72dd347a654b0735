import XofConformance.Proofs.Run.Faults

/-!
# Sources on one pool

Sources are run one after the other on one pool. Whatever becomes of a run, it leaves the pool idle
for the next one. So with a subject that has no state a run comes to what it comes to on a pool of
its own, with the same value or the same fault: the runs before it leave no trace.

    Run (runEach env tasks) (p, w) results v → ∀ r ∈ results, r.2.IsIdle         (runEach_idle)
    the outcomes on one pool = the outcomes on pools of their own                (runEach_alone)
-/

namespace XofConformance

namespace Source

variable {ε : Type}

/-! ## Runs one after the other -/

section

variable {m : Type → Type} [Monad m] {W : Type} [HasRuns m W] {env : Setting (Desk ε) m}
  {p : Pool (Desk ε)} {w : W} {v : Pool (Desk ε) × W}
  {results : List (Except Fault (List GroupResponse) × Pool (Desk ε))}

theorem run_runEach_nil : Run (runEach env []) (p, w) results v ↔ results = [] ∧ v = (p, w) :=
  run_pure

theorem run_runEach_cons {algorithm : Text} {s : Source} {rest : List (Text × Source)} :
    Run (runEach env ((algorithm, s) :: rest)) (p, w) results v ↔
      ∃ q p₁ w₁ others, Ends (s.run env algorithm) (p, w) q (p₁, w₁) ∧
        Run (runEach env rest) (p₁, w₁) others v ∧ results = (q, p₁) :: others := by
  show Run ((s.run env algorithm).run >>= fun q => get >>= fun p₁ =>
    runEach env rest >>= fun others => pure ((q, p₁) :: others)) _ _ _ ↔ _
  rw [run_bind]
  constructor
  · rintro ⟨q, ⟨p₁, w₁⟩, hs, h⟩
    obtain ⟨_, _, hget, h⟩ := run_bind.1 h
    obtain ⟨rfl, rfl⟩ := run_get.1 hget
    obtain ⟨others, _, hrest, h⟩ := run_bind.1 h
    obtain ⟨rfl, rfl⟩ := run_pure.1 h
    exact ⟨q, _, w₁, others, hs, hrest, rfl⟩
  · rintro ⟨q, p₁, w₁, others, hs, hrest, rfl⟩
    exact ⟨q, (p₁, w₁), hs, run_bind.2 ⟨p₁, (p₁, w₁), run_get.2 ⟨rfl, rfl⟩,
      run_bind.2 ⟨others, v, hrest, run_pure.2 ⟨rfl, rfl⟩⟩⟩⟩

variable [LawfulMonad m]

/-- Every run leaves the pool idle, and every source is run. -/
theorem runEach_idle {tasks : List (Text × Source)} (hp : p.IsIdle)
    (h : Run (runEach env tasks) (p, w) results v) :
    results.length = tasks.length ∧ ∀ r ∈ results, r.2.IsIdle := by
  induction tasks generalizing p w results with
  | nil =>
    obtain ⟨rfl, -⟩ := run_runEach_nil.1 h
    exact ⟨rfl, fun r hr => absurd hr List.not_mem_nil⟩
  | cons task rest ih =>
    obtain ⟨q, p₁, w₁, others, hs, hrest, rfl⟩ := run_runEach_cons.1 h
    have hidle : p₁.IsIdle := run_idle hp hs
    obtain ⟨hlength, hothers⟩ := ih hidle hrest
    refine ⟨congrArg Nat.succ hlength, fun r hr => ?_⟩
    rcases List.mem_cons.1 hr with rfl | hr
    · exact hidle
    · exact hothers r hr

end

/-! ## Subjects without a state -/

variable {f : Answering} {order : Order} {schedule schedule' : Schedule (Desk ε)}

/-- Two runs of a source on idle pools come to the same, if the calls are released in the same
order and none is lost. -/
theorem run_unique {p p₁ p' p₁' : Pool (Desk ε)} {algorithm : Text} {s : Source}
    {q q' : Except Fault (List GroupResponse)} (hrelease : schedule.release = order.arrange)
    (hrelease' : schedule'.release = order.arrange) (hlost : ∀ n, schedule.lost n = false)
    (hlost' : ∀ n, schedule'.lost n = false) (hp : p.IsIdle) (hp' : p'.IsIdle)
    (h : Ends (s.run (.stateless f schedule) algorithm) (p, ()) q (p₁, ()))
    (h' : Ends (s.run (.stateless f schedule') algorithm) (p', ()) q' (p₁', ())) : q = q' := by
  have hf : (Setting.stateless f schedule).schedule.Faithful := Schedule.faithful_of_order hrelease
  have hf' : (Setting.stateless f schedule').schedule.Faithful :=
    Schedule.faithful_of_order hrelease'
  refine eq_of_faultOf_eq ?_
    ((run_fault hrelease hlost hp h).trans (run_fault hrelease' hlost' hp' h').symm)
  rcases ends_run.1 h with ⟨e, hprep, rfl, -⟩ | ⟨groups, hprep, hrun⟩
  · rcases ends_run.1 h' with ⟨e', -, rfl, -⟩ | ⟨groups', hprep', -⟩
    · rfl
    · rw [hprep] at hprep'
      cases hprep'
  · rcases ends_run.1 h' with ⟨e', hprep', -⟩ | ⟨groups', hprep', hrun'⟩
    · rw [hprep] at hprep'
      cases hprep'
    · rw [hprep] at hprep'
      cases hprep'
      obtain ⟨-, -, -, hres⟩ :=
        PreparedGroup.ends_runDrained (A := Account.stateless f schedule) hf hp trivial hrun
      obtain ⟨-, -, -, hres'⟩ :=
        PreparedGroup.ends_runDrained (A := Account.stateless f schedule') hf' hp' trivial hrun'
      exact hres.toOption_eq hres' (fun hg => ⟨_, hg, rfl⟩) (fun hg => ⟨_, hg, rfl⟩) hlost hlost'

/-- What a source comes to on a pool of its own. -/
def outcome (env : Setting (Desk ε) Id) (p : Pool (Desk ε)) (task : Text × Source) :
    Except Fault (List GroupResponse) :=
  (Id.run ((task.2.run env task.1).run p)).1

/-- On one pool every source comes to what it comes to on a pool of its own. -/
theorem runEach_alone {p fresh : Pool (Desk ε)} {v : Pool (Desk ε) × Unit}
    {tasks : List (Text × Source)}
    {results : List (Except Fault (List GroupResponse) × Pool (Desk ε))}
    (hrelease : schedule.release = order.arrange) (hrelease' : schedule'.release = order.arrange)
    (hlost : ∀ n, schedule.lost n = false) (hlost' : ∀ n, schedule'.lost n = false)
    (hp : p.IsIdle) (hfresh : fresh.IsIdle)
    (h : Run (runEach (.stateless f schedule) tasks) (p, ()) results v) :
    results.map (·.1) = tasks.map (outcome (.stateless f schedule') fresh) := by
  induction tasks generalizing p results with
  | nil =>
    obtain ⟨rfl, -⟩ := run_runEach_nil.1 h
    rfl
  | cons task rest ih =>
    obtain ⟨q, p₁, ⟨⟩, others, hs, hrest, rfl⟩ := run_runEach_cons.1 h
    have halone : q = outcome (.stateless f schedule') fresh task :=
      run_unique hrelease hrelease' hlost hlost' hp hfresh hs (run_id _ fresh)
    rw [List.map_cons, List.map_cons, ih (run_idle hp hs) hrest, halone]

/-! ## Top theorem -/

/-- Sources that are run one after the other on an idle pool leave no trace: the pool is idle after
every run, whatever the subject does, whatever is lost and whoever takes the turns; and if the
subject has no state and nothing is lost, every run comes to the value or the fault that it comes to
on a fresh pool. -/
theorem runEach_leaves_no_trace (tasks : List (Text × Source)) :
    (∀ {m : Type → Type} [Monad m] [LawfulMonad m] {W : Type} [HasRuns m W]
      (env : Setting (Desk ε) m) {p : Pool (Desk ε)} {w : W} {v : Pool (Desk ε) × W}
      {results : List (Except Fault (List GroupResponse) × Pool (Desk ε))}, p.IsIdle →
      Run (runEach env tasks) (p, w) results v →
        results.length = tasks.length ∧ ∀ r ∈ results, r.2.IsIdle) ∧
    ∀ (f : Answering) (order : Order) (schedule schedule' : Schedule (Desk ε)),
      schedule.release = order.arrange → schedule'.release = order.arrange →
      (∀ n, schedule.lost n = false) → (∀ n, schedule'.lost n = false) →
      ∀ {p fresh : Pool (Desk ε)}, p.IsIdle → fresh.IsIdle →
        (Id.run ((runEach (.stateless f schedule) tasks).run p)).1.map (·.1) =
          tasks.map (outcome (.stateless f schedule') fresh) := by
  refine ⟨fun env _ _ _ _ hp h => runEach_idle hp h, ?_⟩
  intro f order schedule schedule' hrelease hrelease' hlost hlost' p fresh hp hfresh
  exact runEach_alone hrelease hrelease' hlost hlost' hp hfresh (run_id _ p)

/-- A set that fails, a text that is no document, and the set once more for another algorithm. -/
def threeTasks : List (Text × Source) :=
  [("cSHAKE-256", .vectorSet .twoTests), ("cSHAKE-128", .document (.text "[")),
    ("cSHAKE-128", .vectorSet .twoTests)]

/-- A subject that knows one algorithm only. -/
def oneAlgorithm : Answering := fun op args =>
  if op = "cSHAKE-128" then .ok [args.headD []] else .error (.subject (.told "unknown"))

/-- The outcomes of these three tasks, and the pools they leave. -/
def runThree : List (Except Fault (List GroupResponse) × Pool (Desk Unit)) :=
  (Id.run ((runEach (.stateless oneAlgorithm .alternating) threeTasks).run
    { client := { extra := () } })).1

/-- The last of the three tasks is answered as if the others had not been there. -/
theorem runThree_leaves_no_trace :
    let fresh : Pool (Desk Unit) := { client := { extra := () } }
    let reversed : Schedule (Desk Unit) := { release := List.reverse }
    runThree.map (fun r => r.1.toOption.isSome) = [false, false, true] ∧
      (runThree.length = 3 ∧ ∀ r ∈ runThree, r.2.IsIdle) ∧
      runThree.map (·.1) = threeTasks.map (outcome (.stateless oneAlgorithm reversed) fresh) := by
  intro fresh reversed
  have hidle : fresh.IsIdle := ⟨rfl, rfl⟩
  exact ⟨by decide +kernel, (runEach_leaves_no_trace threeTasks).1 _ hidle (run_id _ fresh),
    (runEach_leaves_no_trace threeTasks).2 oneAlgorithm .backward .alternating reversed rfl rfl
      (fun _ => rfl) (fun _ => rfl) hidle hidle⟩

end Source

end XofConformance
