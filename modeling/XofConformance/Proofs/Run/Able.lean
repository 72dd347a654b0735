import XofConformance.Proofs.Exchange.Able
import XofConformance.Proofs.Exchange.Desk
import XofConformance.Run.Process

/-!
# Runs that come to an end

With a live subject a vector set is run to its end, from any pool and any sound world.

    A.Live → A.Able (vs.run env algorithm)                                    (able_vectorSet)
-/

namespace XofConformance

variable {ε : Type} {m : Type → Type} [Monad m] [LawfulMonad m] {W : Type} [HasRuns m W]
  {env : Setting (Desk ε) m} {A : Account env} {p : Pool (Desk ε)} {algorithm : Text}

/-! ## The desk -/

namespace Desk

theorem able_openGroup {tgId : Number} {count : Nat} : A.Able (openGroup tgId count) := by
  rintro ⟨p, w⟩ h
  exact ⟨_, (opened tgId count p, w), ends_openGroup.2 ⟨rfl, rfl, rfl⟩, ⟨h.sound, h.posted⟩⟩

theorem able_fillNow {group index : Nat} {r : TestResponse} : A.Able (fillNow group index r) := by
  rintro ⟨p, w⟩ h
  unfold fillNow
  simp only [ends_get_bind]
  cases p.client.fill group index r with
  | ok d =>
    exact ⟨.ok (), ({ p with client := d }, w), ends_set.2 ⟨rfl, rfl, rfl⟩, ⟨h.sound, h.posted⟩⟩
  | error f => exact able_throw (p, w) h

theorem able_closeGroup (hA : A.Live) (hf : env.schedule.Faithful) {group : Nat} :
    A.Able (closeGroup env group) := by
  refine Account.able_checkpoint hA hf ?_
  rintro ⟨p, w⟩ h
  unfold collect
  simp only [ends_get_bind]
  split
  · exact able_pure (p, w) h
  · exact able_throw (p, w) h

end Desk

/-! ## Tests -/

theorem Functional.able_submitFrom {cases : List PreparedCase} {group index : Nat} :
    A.Able (submitFrom env algorithm group index cases) := by
  induction cases generalizing index with
  | nil =>
    unfold submitFrom
    exact able_pure
  | cons c rest ih =>
    unfold submitFrom
    exact able_bind able_liftExcept fun _ => able_bind Account.able_submit fun _ => ih

namespace MonteCarlo

variable {bounds : Bounds}

omit [LawfulMonad m] in
theorem able_attempt (hA : A.Live) {s : State} :
    Able (A.Holds p) (attempt env.subject algorithm bounds s) :=
  able_bind able_liftExcept fun _ => able_bind (Account.able_ask hA) fun _ => able_liftExcept

theorem able_chain (hA : A.Live) {n : Nat} {s : State} :
    Able (A.Holds p) (chain env.subject algorithm bounds n s) := by
  induction n generalizing s with
  | zero =>
    unfold chain
    exact able_pure
  | succ n ih =>
    have hround : Able (A.Holds p) (round env.subject algorithm bounds s) :=
      able_bind (able_adapt (able_attempt hA)) fun _ => able_pure
    unfold chain
    exact able_bind hround fun _ => able_bind ih fun _ => able_pure

theorem able_fillFrom (hA : A.Live) {cases : List PreparedCase} {group index : Nat} :
    A.Able (fillFrom env algorithm bounds group index cases) := by
  induction cases generalizing index with
  | nil =>
    unfold fillFrom
    exact able_pure
  | cons c rest ih =>
    have hcase : ∀ p, Able (A.Holds p) (runCase env.subject algorithm bounds c) := fun p =>
      able_bind (able_chain hA) fun _ => able_pure
    unfold fillFrom
    exact able_bind (Account.able_fallible hcase) fun _ => able_bind Desk.able_fillNow fun _ => ih

end MonteCarlo

/-! ## Groups -/

namespace PreparedGroup

theorem able_run (hA : A.Live) (hf : env.schedule.Faithful) {g : PreparedGroup} :
    A.Able (g.run env algorithm) := by
  unfold run
  refine able_bind Desk.able_openGroup fun group => ?_
  cases g.testType with
  | functional =>
    exact able_bind Functional.able_submitFrom fun _ => Desk.able_closeGroup hA hf
  | monteCarlo =>
    exact able_bind (MonteCarlo.able_fillFrom hA) fun _ => Desk.able_closeGroup hA hf

theorem able_runAll (hA : A.Live) (hf : env.schedule.Faithful) {groups : List PreparedGroup} :
    A.Able (runAll env algorithm groups) := by
  induction groups with
  | nil =>
    unfold runAll
    exact able_pure
  | cons g rest ih =>
    unfold runAll
    exact able_bind (able_run hA hf) fun _ => able_bind ih fun _ => able_pure

theorem able_runDrained (hA : A.Live) (hf : env.schedule.Faithful) {groups : List PreparedGroup} :
    A.Able (runDrained env algorithm groups) := by
  have hdrain : A.Able (tryCatch env.drain fun _ => return) :=
    able_tryCatch (Account.able_drain hA hf) fun _ => able_pure
  unfold runDrained
  refine able_bind (able_tryCatch (able_runAll hA hf) fun f => ?_) fun _ => ?_
  · exact able_bind hdrain fun _ => able_throw
  · exact able_bind (Account.able_drain hA hf) fun _ => able_pure

end PreparedGroup

/-- With a live subject a vector set is run to its end. -/
theorem able_vectorSet (hA : A.Live) (hf : env.schedule.Faithful) {vs : VectorSet} :
    A.Able (vs.run env algorithm) := by
  unfold VectorSet.run
  exact able_bind able_liftExcept fun _ => PreparedGroup.able_runDrained hA hf

end XofConformance
