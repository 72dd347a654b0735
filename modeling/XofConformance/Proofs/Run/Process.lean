import XofConformance.Proofs.Run.Functional
import XofConformance.Proofs.Run.MonteCarlo

/-!
# Running a vector set

Groups are run one after the other on a pool that is idle between them. Either all groups are
answered, and none of the calls that were handed over was lost, or a group has failed or a call
was lost. In both cases the pool is idle in the end.

    Ends (vs.run env algorithm) (p, w) r (p', w') → p'.IsIdle                 (ends_vectorSet)
-/

namespace XofConformance

variable {ε : Type} {m : Type → Type} [Monad m] {W : Type} [HasRuns m W]
  {env : Setting (Desk ε) m} {A : Account env} {p p' p'' : Pool (Desk ε)} {w w' : W}
  {algorithm : Text}

/-! ## Lost calls -/

/-- None of the calls that were handed over from one pool to the other was lost. -/
def Schedule.LosesNothing {κ : Type} (schedule : Schedule κ) (p p' : Pool κ) : Prop :=
  ∀ n, p.submitted ≤ n → n < p'.submitted → schedule.lost n = false

/-- One of the calls that were handed over from one pool to the other was lost. -/
def Schedule.Loses {κ : Type} (schedule : Schedule κ) (p p' : Pool κ) : Prop :=
  ∃ n, p.submitted ≤ n ∧ n < p'.submitted ∧ schedule.lost n = true

namespace PreparedGroup

variable {R : Records W} {g : PreparedGroup} {groups : List PreparedGroup}

/-! ## Answers of groups -/

/-- The response tells the answer of the subject to a case of the group. -/
def CaseAnswered (R : Records W) (algorithm : Text) (w : W) (g : PreparedGroup) :
    PreparedCase → TestResponse → Prop :=
  match g.testType with
  | .functional => Functional.Answered R algorithm w
  | .monteCarlo => MonteCarlo.Answered R algorithm g.bounds w

/-- The subject has failed in a case of the group. -/
def CaseFailed (R : Records W) (algorithm : Text) (w : W) (g : PreparedGroup) :
    PreparedCase → Prop :=
  match g.testType with
  | .functional => Functional.Failed R algorithm w
  | .monteCarlo => MonteCarlo.Failed R algorithm g.bounds w

/-- The response has an answer for every case of the group, in the order of the cases. -/
structure Answered (R : Records W) (algorithm : Text) (w : W) (g : PreparedGroup)
    (r : GroupResponse) : Prop where
  tgId : r.tgId = g.tgId
  tests : List.Forall₂ (g.CaseAnswered R algorithm w) g.cases r.tests

/-- A case of the group has failed. -/
def Failed (R : Records W) (algorithm : Text) (w : W) (g : PreparedGroup) : Prop :=
  ∃ c ∈ g.cases, g.CaseFailed R algorithm w c

section

variable {W' : Type} {R' : Records W'} {w' : W'}

theorem CaseAnswered.told {c : PreparedCase} {r : TestResponse}
    (h : g.CaseAnswered R algorithm w c r) (ht : R.Tells w R' w') :
    g.CaseAnswered R' algorithm w' c r := by
  unfold CaseAnswered at h ⊢
  cases hg : g.testType with
  | functional => rw [hg] at h; exact h.told ht
  | monteCarlo => rw [hg] at h; exact h.told ht

theorem CaseFailed.told {c : PreparedCase} (h : g.CaseFailed R algorithm w c)
    (ht : R.Tells w R' w') : g.CaseFailed R' algorithm w' c := by
  unfold CaseFailed at h ⊢
  cases hg : g.testType with
  | functional => rw [hg] at h; exact h.told ht
  | monteCarlo => rw [hg] at h; exact MonteCarlo.Broken.told h ht

theorem Answered.told {r : GroupResponse} (h : g.Answered R algorithm w r)
    (ht : R.Tells w R' w') : g.Answered R' algorithm w' r :=
  ⟨h.tgId, h.tests.imp fun _ _ hc => hc.told ht⟩

theorem Failed.told (h : g.Failed R algorithm w) (ht : R.Tells w R' w') :
    g.Failed R' algorithm w' := by
  obtain ⟨c, hc, hf⟩ := h
  exact ⟨c, hc, hf.told ht⟩

end

/-- What several groups come to: the responses answer the groups in their order and nothing was
lost, or a group has failed or something was lost. -/
def Result (A : Account env) (algorithm : Text) (groups : List PreparedGroup)
    (p p' : Pool (Desk ε)) (w' : W) : Except Fault (List GroupResponse) → Prop :=
  Verdict (fun responses => List.Forall₂ (Answered A.toRecords algorithm w') groups responses ∧
      env.schedule.LosesNothing p p')
    ((∃ g ∈ groups, g.Failed A.toRecords algorithm w') ∨ env.schedule.Loses p p')

/-- What a group and the groups after it come to, taken together. -/
theorem Result.cons {r : GroupResponse} {p₁ : Pool (Desk ε)} {w₁ : W}
    {q : Except Fault (List GroupResponse)} (hg : g.Answered A.toRecords algorithm w₁ r)
    (hnone : env.schedule.LosesNothing p p₁) (hl : A.Later w₁ w')
    (hsub : p.submitted ≤ p₁.submitted) (h : Result A algorithm groups p₁ p' w' q) :
    Result A algorithm (g :: groups) p p' w' (q.map (r :: ·)) := by
  cases q with
  | ok responses =>
    obtain ⟨hall, hrest⟩ := h
    refine ⟨.cons (hg.told hl.tells) hall, fun n hn hn' => ?_⟩
    by_cases hlt : n < p₁.submitted
    · exact hnone n hn hlt
    · exact hrest n (Nat.le_of_not_lt hlt) hn'
  | error f =>
    rcases h with ⟨g', hg', hfail⟩ | ⟨n, hn, hn', hlost⟩
    · exact Or.inl ⟨g', List.mem_cons_of_mem _ hg', hfail⟩
    · exact Or.inr ⟨n, Nat.le_trans hsub hn, hn', hlost⟩

/-! ## One group -/

section

variable [LawfulMonad m]

/-- A functional group, from the calls to the closing. -/
theorem ends_functional {q : Except Fault GroupResponse} (hf : env.schedule.Faithful)
    (hp : p.waiting = []) (he : p.error = none) (hw : A.Sound w)
    (h : Ends (do
        Functional.submit env algorithm g.cases p.client.groups.length
        Desk.closeGroup env p.client.groups.length)
      (Desk.opened g.tgId g.cases.length p, w) q (p', w')) :
    A.Later w w' ∧ A.Holds p' w' ∧ p.submitted ≤ p'.submitted ∧
      Verdict (fun r => p'.IsIdle ∧ r.tgId = g.tgId ∧
          List.Forall₂ (Functional.Answered A.toRecords algorithm w') g.cases r.tests ∧
          env.schedule.LosesNothing p p')
        ((∃ c ∈ g.cases, Functional.Failed A.toRecords algorithm w' c) ∨ env.schedule.Loses p p')
        q := by
  rcases ends_bind.1 h with ⟨f, hsub, rfl⟩ | ⟨⟨⟩, ⟨p₁, w₁⟩, hsub, hclose⟩
  · obtain ⟨rfl, -, hopen, k, hk, hres⟩ := Functional.submit_handed hp hsub
    have hholds := hk.holds (A := A) hw hopen
    refine ⟨Records.Later.refl hw, hholds.account, ?_, Or.inl ?_⟩
    · rw [hk.submitted]
      exact Nat.le_add_right _ _
    · rcases hres with ⟨he, -⟩ | ⟨c, hc, f, ha, -⟩
      · cases he
      · exact ⟨c, hc, Or.inl ⟨f, ha⟩⟩
  · obtain ⟨rfl, herr, hopen, k, hk, hres⟩ := Functional.submit_handed hp hsub
    obtain ⟨-, rfl⟩ | ⟨_, _, _, _, he⟩ := hres
    swap
    · cases he
    have hholds := hk.holds (A := A) hw hopen
    obtain ⟨hl, hwait, hsubm, hv⟩ :=
      Functional.Batch.close hf hholds (by rw [herr]; exact he) hk hclose
    have hcount : p'.submitted = p.submitted + g.cases.length := hsubm.trans hk.submitted
    refine ⟨hl, Account.holds_of_idle hl.sound hwait, by omega, ?_⟩
    cases q with
    | ok r =>
      obtain ⟨herr', htg, hall, hnone⟩ := hv
      refine ⟨⟨hwait, herr'⟩, htg, hall, fun n hn hn' => ?_⟩
      obtain ⟨i, rfl⟩ := Nat.le.dest hn
      exact hnone i (show i < g.cases.length by omega)
    | error f =>
      rcases hv with hfail | ⟨i, hi, hlost⟩
      · exact Or.inl hfail
      · have hi' : i < g.cases.length := hi
        exact Or.inr ⟨p.submitted + i, by omega, by omega, hlost⟩

/-- A Monte Carlo group, from its first case to the closing, which does nothing any more. -/
theorem ends_monteCarlo {q : Except Fault GroupResponse} (hf : env.schedule.Faithful)
    (hp : p.IsIdle) (hw : A.Sound w)
    (h : Ends (do
        MonteCarlo.fillFrom env algorithm g.bounds p.client.groups.length 0 g.cases
        Desk.closeGroup env p.client.groups.length)
      (Desk.opened g.tgId g.cases.length p, w) q (p', w')) :
    A.Later w w' ∧ p'.IsIdle ∧ p'.submitted = p.submitted ∧
      Ends (MonteCarlo.fillFrom env algorithm g.bounds p.client.groups.length 0 g.cases)
        (Desk.opened g.tgId g.cases.length p, w) (q.map fun _ => ()) (p', w') ∧
      Verdict (fun r => r.tgId = g.tgId ∧
          List.Forall₂ (MonteCarlo.Answered A.toRecords algorithm g.bounds w') g.cases r.tests)
        (∃ c ∈ g.cases, MonteCarlo.Failed A.toRecords algorithm g.bounds w' c) q := by
  have hopen : (Desk.opened g.tgId g.cases.length p).client.groups[p.client.groups.length]? =
      some { tgId := g.tgId, slots := ([] : List TestResponse).map some ++
        List.replicate g.cases.length none } := Desk.getElem?_opened
  rcases ends_bind.1 h with ⟨f, hfill, rfl⟩ | ⟨⟨⟩, ⟨p₁, w₁⟩, hfill, hclose⟩
  · obtain ⟨hl, hwait, herr, hsub, hv⟩ := MonteCarlo.ends_fillFrom rfl .nil hopen hw hfill
    exact ⟨hl, ⟨hwait.trans hp.1, herr.trans hp.2⟩, hsub, hfill, hv⟩
  · obtain ⟨hl, hwait, herr, hsub, all, hall, hans⟩ :=
      MonteCarlo.ends_fillFrom rfl .nil hopen hw hfill
    have hidle : p₁.IsIdle := ⟨hwait.trans hp.1, herr.trans hp.2⟩
    obtain ⟨rfl, rfl, rfl⟩ := MonteCarlo.close hf hidle hall hclose
    exact ⟨hl, hidle, hsub, hfill, rfl, hans⟩

/-- Running a group answers every case of it, or a case fails, or a call is lost. -/
theorem ends_run {q : Except Fault GroupResponse} (hf : env.schedule.Faithful) (hp : p.IsIdle)
    (hw : A.Sound w) (h : Ends (g.run env algorithm) (p, w) q (p', w')) :
    A.Later w w' ∧ A.Holds p' w' ∧ p.submitted ≤ p'.submitted ∧
      Verdict (fun r => p'.IsIdle ∧ g.Answered A.toRecords algorithm w' r ∧
          env.schedule.LosesNothing p p')
        (g.Failed A.toRecords algorithm w' ∨ env.schedule.Loses p p') q := by
  unfold run at h
  rcases ends_bind.1 h with ⟨f, ho, -⟩ | ⟨group, ⟨p₁, w₁⟩, ho, hrest⟩
  · cases (Desk.ends_openGroup.1 ho).1
  obtain ⟨hgroup, rfl, rfl⟩ := Desk.ends_openGroup.1 ho
  cases hgroup
  cases ht : g.testType with
  | functional =>
    rw [ht] at hrest
    obtain ⟨hl, hA, hsub, hv⟩ := ends_functional hf hp.1 hp.2 hw hrest
    refine ⟨hl, hA, hsub, ?_⟩
    cases q with
    | ok r =>
      obtain ⟨hidle, htg, hall, hnone⟩ := hv
      exact ⟨hidle, ⟨htg, by rw [CaseAnswered, ht]; exact hall⟩, hnone⟩
    | error f =>
      rcases hv with ⟨c, hc, hfail⟩ | hlost
      · exact Or.inl ⟨c, hc, by rw [CaseFailed, ht]; exact hfail⟩
      · exact Or.inr hlost
  | monteCarlo =>
    rw [ht] at hrest
    obtain ⟨hl, hidle, hsub, -, hv⟩ := ends_monteCarlo hf hp hw hrest
    refine ⟨hl, Account.holds_of_idle hl.sound hidle.1, Nat.le_of_eq hsub.symm, ?_⟩
    cases q with
    | ok r =>
      obtain ⟨htg, hall⟩ := hv
      exact ⟨hidle, ⟨htg, by rw [CaseAnswered, ht]; exact hall⟩, fun n hn hn' => by omega⟩
    | error f =>
      obtain ⟨c, hc, hfail⟩ := hv
      exact Or.inl ⟨c, hc, by rw [CaseFailed, ht]; exact hfail⟩

/-! ## Several groups -/

omit [LawfulMonad m] in
/-- Groups are run by running the first one and, unless it fails, the others. -/
theorem ends_runAll_cons {q : Except Fault (List GroupResponse)} {v : Pool (Desk ε) × W}
    (h : Ends (runAll env algorithm (g :: groups)) (p, w) q v) :
    (∃ f, Ends (g.run env algorithm) (p, w) (.error f) v ∧ q = .error f) ∨
      ∃ r p₁ w₁ others, Ends (g.run env algorithm) (p, w) (.ok r) (p₁, w₁) ∧
        Ends (runAll env algorithm groups) (p₁, w₁) others v ∧ q = others.map (r :: ·) := by
  unfold runAll at h
  rcases ends_bind.1 h with ⟨f, hg, rfl⟩ | ⟨r, ⟨p₁, w₁⟩, hg, hrest⟩
  · exact Or.inl ⟨f, hg, rfl⟩
  rcases ends_bind.1 hrest with ⟨f, hall, rfl⟩ | ⟨responses, ⟨p₂, w₂⟩, hall, hret⟩
  · exact Or.inr ⟨r, p₁, w₁, _, hg, hall, rfl⟩
  · obtain ⟨rfl, rfl⟩ := ends_pure.1 hret
    exact Or.inr ⟨r, p₁, w₁, _, hg, hall, rfl⟩

theorem ends_runAll {q : Except Fault (List GroupResponse)} (hf : env.schedule.Faithful)
    (hp : p.IsIdle) (hw : A.Sound w) (h : Ends (runAll env algorithm groups) (p, w) q (p', w')) :
    A.Later w w' ∧ A.Holds p' w' ∧ p.submitted ≤ p'.submitted ∧
      Result A algorithm groups p p' w' q ∧ (q.toBool = true → p'.IsIdle) := by
  induction groups generalizing p w q with
  | nil =>
    obtain ⟨rfl, he⟩ := ends_pure.1 h
    cases he
    exact ⟨Records.Later.refl hw, Account.holds_of_idle hw hp.1, Nat.le_refl _,
      ⟨.nil, fun n hn hn' => by omega⟩, fun _ => hp⟩
  | cons g rest ih =>
    rcases ends_runAll_cons h with ⟨f, hg, rfl⟩ | ⟨r, p₁, w₁, others, hg, hall, rfl⟩
    · obtain ⟨hl, hA, hsub, hv⟩ := ends_run hf hp hw hg
      refine ⟨hl, hA, hsub, ?_, fun he => by cases he⟩
      exact hv.imp_left fun hfail => ⟨g, List.mem_cons_self, hfail⟩
    · obtain ⟨hl, -, hsub, hidle, hans, hnone⟩ := ends_run hf hp hw hg
      obtain ⟨hl', hA, hsub', hres, hidle'⟩ := ih hidle hl.sound hall
      refine ⟨hl.trans hl', hA, Nat.le_trans hsub hsub', hres.cons hans hnone hl' hsub,
        fun he => ?_⟩
      cases others with
      | ok responses => exact hidle' rfl
      | error f => cases he

/-- Draining hands nothing over. -/
theorem drain_later {q : Except Fault Unit} (hf : env.schedule.Faithful) (hA : A.Holds p w)
    (h : Ends env.drain (p, w) q (p', w')) :
    A.Later w w' ∧ p'.submitted = p.submitted := by
  obtain ⟨p₁, hs, -, rfl⟩ := ends_drain.1 h
  obtain ⟨turns, q', hw', -, rfl⟩ := run_settle hs
  exact ⟨Account.settle_later hf hA hs, (work_sameCalls hw').submitted⟩

omit [LawfulMonad m] in
/-- Draining without minding what comes of it, and raising a fault. -/
theorem ends_drain_throw {α : Type} {f : Fault} {q : Except Fault α}
    (h : Ends (do
        tryCatch env.drain fun _ => return
        throw f : Exchange (Desk ε) m α) (p, w) q (p', w')) :
    q = .error f ∧ ∃ r, Ends env.drain (p, w) r (p', w') := by
  rcases ends_bind.1 h with ⟨_, hdrain, -⟩ | ⟨⟨⟩, ⟨p₁, w₁⟩, hdrain, hthrow⟩
  · rcases ends_tryCatch.1 hdrain with ⟨_, -, he⟩ | ⟨_, _, -, hret⟩
    · cases he
    · cases (ends_pure.1 hret).1
  · obtain ⟨hq, he⟩ := ends_throw.1 hthrow
    cases he
    refine ⟨hq, ?_⟩
    rcases ends_tryCatch.1 hdrain with ⟨u, hd, -⟩ | ⟨e, v, hd, hret⟩
    · exact ⟨_, hd⟩
    · obtain ⟨-, rfl⟩ := ends_pure.1 hret
      exact ⟨_, hd⟩

omit [LawfulMonad m] in
/-- Running groups is running them, and draining whatever has come of it. -/
theorem ends_runDrained_cases {q : Except Fault (List GroupResponse)}
    (h : Ends (runDrained env algorithm groups) (p, w) q (p', w')) :
    ∃ outcome p₁ w₁ r, Ends (runAll env algorithm groups) (p, w) outcome (p₁, w₁) ∧
      Ends env.drain (p₁, w₁) r (p', w') ∧
      q = outcome.bind fun responses => r.map fun _ => responses := by
  unfold runDrained at h
  rcases ends_bind.1 h with ⟨f, htry, rfl⟩ | ⟨responses, ⟨p₁, w₁⟩, htry, hrest⟩
  · -- the groups have stopped with a fault, which is passed on after draining
    rcases ends_tryCatch.1 htry with ⟨_, -, he⟩ | ⟨f', ⟨p₁, w₁⟩, hall, hhandle⟩
    · cases he
    obtain ⟨he, r, hdrain⟩ := ends_drain_throw hhandle
    cases he
    exact ⟨.error f, p₁, w₁, r, hall, hdrain, rfl⟩
  · rcases ends_tryCatch.1 htry with ⟨_, hall, he⟩ | ⟨f', v, -, hhandle⟩
    swap
    · cases (ends_drain_throw hhandle).1
    cases he
    rcases ends_bind.1 hrest with ⟨f, hdrain, rfl⟩ | ⟨⟨⟩, ⟨p₂, w₂⟩, hdrain, hret⟩
    · exact ⟨.ok responses, p₁, w₁, _, hall, hdrain, rfl⟩
    · obtain ⟨rfl, he⟩ := ends_pure.1 hret
      cases he
      exact ⟨.ok responses, p₁, w₁, _, hall, hdrain, rfl⟩

/-- Running groups leaves the pool idle, whether they are answered or not. -/
theorem ends_runDrained {q : Except Fault (List GroupResponse)} (hf : env.schedule.Faithful)
    (hp : p.IsIdle) (hw : A.Sound w)
    (h : Ends (runDrained env algorithm groups) (p, w) q (p', w')) :
    A.Later w w' ∧ p'.IsIdle ∧ p.submitted ≤ p'.submitted ∧
      Result A algorithm groups p p' w' q := by
  obtain ⟨outcome, p₁, w₁, r, hall, hdrain, rfl⟩ := ends_runDrained_cases h
  obtain ⟨hl, hA, hsub, hres, hidle⟩ := ends_runAll hf hp hw hall
  cases outcome with
  | error f =>
    obtain ⟨hl', hsub'⟩ := drain_later hf hA hdrain
    refine ⟨hl.trans hl', drain_idle hdrain, by omega, ?_⟩
    rcases hres with ⟨g, hg, hfail⟩ | ⟨n, hn, hn', hlost⟩
    · exact Or.inl ⟨g, hg, hfail.told hl'.tells⟩
    · exact Or.inr ⟨n, hn, by omega, hlost⟩
  | ok responses =>
    obtain ⟨rfl, rfl, rfl⟩ := drain_of_idle hf (hidle rfl) hdrain
    exact ⟨hl, hidle rfl, hsub, hres⟩

end

end PreparedGroup

/-! ## The whole set -/

/-- Running a vector set on an idle pool leaves it idle. A set that cannot be prepared does
nothing; else its groups are answered, or one fails, or a call is lost. -/
theorem ends_vectorSet [LawfulMonad m] {vs : VectorSet} {q : Except Fault (List GroupResponse)}
    (hf : env.schedule.Faithful) (hp : p.IsIdle) (hw : A.Sound w)
    (h : Ends (vs.run env algorithm) (p, w) q (p', w')) :
    A.Later w w' ∧ p'.IsIdle ∧
      match vs.prepare with
      | .error f => q = .error f ∧ p' = p ∧ w' = w
      | .ok groups => PreparedGroup.Result A algorithm groups p p' w' q := by
  unfold VectorSet.run at h
  rcases ends_liftExcept_bind.1 h with ⟨f, hprep, rfl, he⟩ | ⟨groups, hprep, hrun⟩
  · cases he
    rw [hprep]
    exact ⟨Records.Later.refl hw, hp, rfl, rfl, rfl⟩
  · obtain ⟨hl, hidle, -, hres⟩ := PreparedGroup.ends_runDrained hf hp hw hrun
    rw [hprep]
    exact ⟨hl, hidle, hres⟩

/-- Two functional tests of one group. -/
def VectorSet.twoTests : VectorSet :=
  { groups := [{ tgId := .int 1, testType := "AFT", tests := [
    { tcId := .int 1, msgHex := "00ff", bitLength := .int 16, outLen := .int 32 },
    { tcId := .int 2, msgHex := "01", bitLength := .int 8 }] }] }

/-- Calls are released in reverse, and the workers take turns. -/
def Schedule.alternating : Schedule (Desk Unit) :=
  { release := List.reverse, turns := fun _ => [1, 0, 1, 1, 0] }

end XofConformance
