import XofConformance.Proofs.Exchange.Session
import XofConformance.Proofs.Run.Process
import XofConformance.Run.Source

/-!
# The pool after a run

A run that gets as far as its first group leaves the pool idle, whatever the pool was like before,
whatever the subject does and whatever is lost: it drains in the end, and it drains before it
passes a fault on. A source that gives no groups is refused before that, and then the pool is left
as it was.

    Ends (runDrained env algorithm groups) (p, w) r (p', w') → p'.IsIdle      (runDrained_idle)
    p'.IsIdle ↔ p was idle, or the source gives groups                    (leaves_idle_iff)
-/

namespace XofConformance

variable {ε : Type} {m : Type → Type} [Monad m] [LawfulMonad m] {W : Type} [HasRuns m W]
  {env : Setting (Desk ε) m} {p p' : Pool (Desk ε)} {w w' : W} {algorithm : Text} {s : Source}

/-! ## Runs -/

/-- Whatever the pool was like, running groups leaves it idle. -/
theorem PreparedGroup.runDrained_idle {groups : List PreparedGroup}
    {q : Except Fault (List GroupResponse)}
    (h : Ends (runDrained env algorithm groups) (p, w) q (p', w')) : p'.IsIdle := by
  obtain ⟨_, _, _, _, -, hdrain, -⟩ := ends_runDrained_cases h
  exact drain_idle hdrain

namespace Source

theorem prepare_of_read {f : Fault} (h : s.read = .error f) : s.prepare = .error f := by
  unfold prepare
  rw [h]
  rfl

theorem prepare_of_vectorSet {vs : VectorSet} (h : s.read = .ok vs) : s.prepare = vs.prepare := by
  unfold prepare
  rw [h]
  rfl

omit [LawfulMonad m] in
/-- A source that gives no groups is refused and nothing else happens; else its groups are run. -/
theorem ends_run {q : Except Fault (List GroupResponse)} :
    Ends (s.run env algorithm) (p, w) q (p', w') ↔
      (∃ f, s.prepare = .error f ∧ q = .error f ∧ p' = p ∧ w' = w) ∨
      ∃ groups, s.prepare = .ok groups ∧
        Ends (PreparedGroup.runDrained env algorithm groups) (p, w) q (p', w') := by
  unfold run
  rw [ends_liftExcept_bind]
  cases hread : s.read with
  | error f =>
    simp [prepare_of_read hread]
  | ok vs =>
    rw [prepare_of_vectorSet hread]
    unfold VectorSet.run
    simp [ends_liftExcept_bind]

/-- A run on an idle pool leaves it idle, whatever it comes to. -/
theorem run_idle {q : Except Fault (List GroupResponse)} (hp : p.IsIdle)
    (h : Ends (s.run env algorithm) (p, w) q (p', w')) : p'.IsIdle := by
  rcases ends_run.1 h with ⟨f, -, -, rfl, -⟩ | ⟨groups, -, hrun⟩
  · exact hp
  · exact PreparedGroup.runDrained_idle hrun

/-! ## Top theorem -/

/-- A run leaves the pool idle if and only if it was idle before or there are groups to run. If
there are none, the pool is left as it was. -/
theorem leaves_idle_iff {q : Except Fault (List GroupResponse)}
    (h : Ends (s.run env algorithm) (p, w) q (p', w')) :
    (p'.IsIdle ↔ p.IsIdle ∨ ∃ groups, s.prepare = .ok groups) ∧
      ∀ f, s.prepare = .error f → q = .error f ∧ p' = p := by
  rcases ends_run.1 h with ⟨f, hprep, rfl, rfl, -⟩ | ⟨groups, hprep, hrun⟩
  · refine ⟨⟨Or.inl, ?_⟩, fun f' hf' => ?_⟩
    · rintro (hidle | ⟨groups, hgroups⟩)
      · exact hidle
      · rw [hprep] at hgroups
        cases hgroups
    · rw [hprep] at hf'
      cases hf'
      exact ⟨rfl, rfl⟩
  · refine ⟨iff_of_true (PreparedGroup.runDrained_idle hrun) (Or.inr ⟨groups, hprep⟩),
      fun f hf => ?_⟩
    rw [hprep] at hf
    cases hf

end Source

/-- The surroundings of a subject that is down. -/
def Setting.down : Setting (Desk Unit) Id :=
  { subject := fun _ => .error (.subject (.told "down")) }

/-- A call is handed over, and a checkpoint tells that it has failed. -/
def Operation.failedCall : List (Operation (Desk Unit) Id) :=
  [.submit { op := "cSHAKE-128", expected := 1, args := [] } fun _ d => .ok d,
    .checkpoint fun d => (.ok (), d)]

/-- The pool after operations on a new one. -/
def Pool.after (env : Setting (Desk Unit) Id) (ops : List (Operation (Desk Unit) Id)) :
    Pool (Desk Unit) :=
  ops.foldl (fun p op => (Id.run ((env.perform op).run p)).2) { client := { extra := () } }

/-- The pool after that failure, with one more call on its way. -/
def Pool.troubled : Pool (Desk Unit) :=
  .after .down (Operation.failedCall ++
    [.submit { op := "cSHAKE-256", expected := 1, args := [] } fun _ d => .ok d])

/-- Two tests are run on that pool, and fail as well. -/
def Source.runTroubled : Except Fault (List GroupResponse) × Pool (Desk Unit) :=
  Id.run (((Source.vectorSet .twoTests).run .down "cSHAKE-128").run .troubled)

/-- The pool had a call and a failure, and is idle in the end. -/
theorem Source.runTroubled_leaves_idle :
    Pool.troubled.waiting.length = 1 ∧ Pool.troubled.error.isSome = true ∧
      Source.runTroubled.1.toOption = none ∧ Source.runTroubled.2.IsIdle := by
  have hends : Ends ((Source.vectorSet .twoTests).run .down "cSHAKE-128") (Pool.troubled, ())
      Source.runTroubled.1 (Source.runTroubled.2, ()) := rfl
  have hprepare : ∃ groups, (Source.vectorSet .twoTests).prepare = .ok groups := by
    have hsome : (Source.vectorSet .twoTests).prepare.toOption.isSome = true := by decide +kernel
    cases hp : (Source.vectorSet .twoTests).prepare with
    | ok groups => exact ⟨groups, rfl⟩
    | error f =>
      rw [hp] at hsome
      cases hsome
  exact ⟨by decide +kernel, by decide +kernel, by decide +kernel,
    (leaves_idle_iff hends).1.2 (Or.inr hprepare)⟩

/-- A set with a group of no known type is refused, and the failure of an earlier call stays
recorded. -/
theorem Source.refused_leaves_failure :
    let p := Pool.after .down Operation.failedCall
    let s := Source.vectorSet { groups := [{ tgId := .int 1, testType := "VOT", tests := [] }] }
    Session .down Operation.failedCall ({ client := { extra := () } }, ()) (p, ()) ∧
      ¬ (Id.run ((s.run .down "cSHAKE-128").run p)).2.IsIdle := by
  intro p s
  refine ⟨Session.of_operations .down Operation.failedCall { client := { extra := () } }, ?_⟩
  rintro ⟨-, herror⟩
  cases herror

end XofConformance
