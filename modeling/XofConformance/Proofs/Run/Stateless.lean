import XofConformance.Proofs.Run.Process

/-!
# Subjects without a state

A subject without a state gives an answer that depends on the call only. Then the answers to a
group are determined: there is at most one response to a group, and none to a group that fails. So
two runs with such a subject come to the same, however it is reached and whoever takes the turns.

    two results with nothing lost → q.toOption = q'.toOption               (Result.toOption_eq)
-/

namespace XofConformance

/-- What a subject without a state answers to an operation and its arguments. -/
abbrev Answering := Text → List Bytes → Outcome

/-- The answers that a subject without a state gives. -/
def Records.ofFunction (f : Answering) : Records Unit where
  Sound _ := True
  Posted _ _ _ := True
  Given _ c o := o = f c.op c.args

/-- The surroundings of a subject without a state. -/
def Setting.stateless {κ : Type} (f : Answering) (schedule : Schedule κ) : Setting κ Id where
  subject := fun c => f c.op c.args
  schedule := schedule

/-- A subject without a state keeps its records up. -/
def Account.stateless {κ : Type} (f : Answering) (schedule : Schedule κ) :
    Account (Setting.stateless f schedule) where
  toRecords := .ofFunction f
  put _ _ := ⟨⟨trivial, id, id⟩, trivial⟩
  answer _ _ h := ⟨⟨trivial, id, id⟩, h⟩
  ask _ h := ⟨⟨trivial, id, id⟩, h⟩

variable {f : Answering} {algorithm : Text}

/-! ## Functional tests -/

namespace Functional

variable {c : PreparedCase} {r r' : TestResponse}

theorem Answered.unique (h : Answered (.ofFunction f) algorithm () c r)
    (h' : Answered (.ofFunction f) algorithm () c r') : r = r' := by
  obtain ⟨args, results, ha, hg, -, rfl⟩ := h
  obtain ⟨args', results', ha', hg', -, rfl⟩ := h'
  rw [ha] at ha'
  cases ha'
  have hresults : Except.ok results = Except.ok results' := hg.trans hg'.symm
  cases hresults
  rfl

theorem Answered.not_failed (h : Answered (.ofFunction f) algorithm () c r) :
    ¬ Failed (.ofFunction f) algorithm () c := by
  obtain ⟨args, results, ha, hg, hn, -⟩ := h
  rintro (⟨e, he⟩ | ⟨args', o, e, ha', hg', hs⟩)
  · rw [ha] at he
    cases he
  · rw [ha] at ha'
    cases ha'
    have ho : o = .ok results := hg'.trans hg.symm
    have hok : (call algorithm args).settle o = .ok results := by
      rw [Call.settle_eq_ok_iff]
      exact ⟨ho, by rw [hn]; rfl⟩
    rw [hok] at hs
    cases hs

end Functional

/-! ## Monte Carlo tests -/

namespace MonteCarlo

variable {bounds : Bounds} {n : Nat} {s next next' : State} {results results' : List RoundResult}

theorem Step.unique (h : Step (.ofFunction f) algorithm bounds () s next)
    (h' : Step (.ofFunction f) algorithm bounds () s next') : next = next' := by
  obtain ⟨args, o, ha, hg, hs⟩ := h
  obtain ⟨args', o', ha', hg', hs'⟩ := h'
  rw [ha] at ha'
  cases ha'
  have ho : o = o' := hg.trans hg'.symm
  rw [ho, hs'] at hs
  cases hs
  rfl

theorem Step.not_stuck (h : Step (.ofFunction f) algorithm bounds () s next) :
    ¬ Stuck (.ofFunction f) algorithm bounds () s := by
  obtain ⟨args, o, ha, hg, hs⟩ := h
  rintro (⟨e, he⟩ | ⟨args', o', e, ha', hg', hs'⟩)
  · rw [ha] at he
    cases he
  · rw [ha] at ha'
    cases ha'
    have ho : o = o' := hg.trans hg'.symm
    rw [ho, hs'] at hs
    cases hs

theorem Steps.unique (h : Steps (.ofFunction f) algorithm bounds () n s results)
    (h' : Steps (.ofFunction f) algorithm bounds () n s results') : results = results' := by
  induction h generalizing results' with
  | done =>
    cases h'
    rfl
  | step hs _ ih =>
    cases h' with
    | step hs' hrest =>
      cases hs.unique hs'
      rw [ih hrest]

theorem Steps.not_broken (h : Steps (.ofFunction f) algorithm bounds () n s results) :
    ¬ Broken (.ofFunction f) algorithm bounds () n s := by
  induction h with
  | done =>
    intro hb
    cases hb
  | step hs _ ih =>
    intro hb
    cases hb with
    | here hstuck => exact hs.not_stuck hstuck
    | next hs' hb =>
      cases hs.unique hs'
      exact ih hb

end MonteCarlo

/-! ## Groups -/

namespace PreparedGroup

variable {g : PreparedGroup}

theorem CaseAnswered.unique {c : PreparedCase} {r r' : TestResponse}
    (h : g.CaseAnswered (.ofFunction f) algorithm () c r)
    (h' : g.CaseAnswered (.ofFunction f) algorithm () c r') : r = r' := by
  unfold CaseAnswered at h h'
  cases ht : g.testType with
  | functional =>
    rw [ht] at h h'
    exact h.unique h'
  | monteCarlo =>
    rw [ht] at h h'
    obtain ⟨rounds, hs, rfl⟩ := h
    obtain ⟨rounds', hs', rfl⟩ := h'
    rw [hs.unique hs']

theorem CaseAnswered.not_failed {c : PreparedCase} {r : TestResponse}
    (h : g.CaseAnswered (.ofFunction f) algorithm () c r) :
    ¬ g.CaseFailed (.ofFunction f) algorithm () c := by
  unfold CaseAnswered at h
  unfold CaseFailed
  cases ht : g.testType with
  | functional =>
    rw [ht] at h
    exact h.not_failed
  | monteCarlo =>
    rw [ht] at h
    obtain ⟨rounds, hs, -⟩ := h
    exact hs.not_broken

theorem Answered.unique {r r' : GroupResponse} (h : g.Answered (.ofFunction f) algorithm () r)
    (h' : g.Answered (.ofFunction f) algorithm () r') : r = r' := by
  have htests : r.tests = r'.tests :=
    List.right_unique_forall₂' (fun _ _ _ hc hc' => hc.unique hc') h.tests h'.tests
  obtain ⟨tgId, tests⟩ := r
  obtain ⟨tgId', tests'⟩ := r'
  cases htests
  cases h.tgId.trans h'.tgId.symm
  rfl

theorem Answered.not_failed {r : GroupResponse}
    (h : g.Answered (.ofFunction f) algorithm () r) : ¬ g.Failed (.ofFunction f) algorithm () := by
  rintro ⟨c, hc, hfail⟩
  obtain ⟨r', -, hans⟩ := exists_right_of_forall₂ h.tests hc
  exact hans.not_failed hfail

/-! ## Results -/

section

variable {ε ε' : Type} {m m' : Type → Type} [Monad m] [Monad m'] {W W' : Type} [HasRuns m W]
  [HasRuns m' W'] {env : Setting (Desk ε) m} {env' : Setting (Desk ε') m'} {A : Account env}
  {A' : Account env'} {p p₁ : Pool (Desk ε)} {p' p₁' : Pool (Desk ε')} {w : W} {w' : W'}
  {groups : List PreparedGroup} {q q' : Except Fault (List GroupResponse)}

/-- What groups have come to with nothing lost, with a subject that answers as a function does. -/
theorem Result.verdict (h : Result A algorithm groups p p₁ w q)
    (ht : A.Tells w (.ofFunction f) ()) (hlost : ∀ n, env.schedule.lost n = false) :
    Verdict (List.Forall₂ (Answered (.ofFunction f) algorithm ()) groups)
      (∃ g ∈ groups, g.Failed (.ofFunction f) algorithm ()) q := by
  cases q with
  | ok responses => exact h.1.imp fun _ _ ha => ha.told ht
  | error e =>
    rcases h with ⟨g, hg, hfail⟩ | ⟨n, -, -, hn⟩
    · exact ⟨g, hg, hfail.told ht⟩
    · rw [hlost n] at hn
      cases hn

/-- Two subjects that answer as one function does make the same of groups. -/
theorem Result.toOption_eq (h : Result A algorithm groups p p₁ w q)
    (h' : Result A' algorithm groups p' p₁' w' q') (ht : A.Tells w (.ofFunction f) ())
    (ht' : A'.Tells w' (.ofFunction f) ()) (hlost : ∀ n, env.schedule.lost n = false)
    (hlost' : ∀ n, env'.schedule.lost n = false) : q.toOption = q'.toOption := by
  have hv := h.verdict ht hlost
  have hv' := h'.verdict ht' hlost'
  cases q with
  | ok responses =>
    cases q' with
    | ok responses' =>
      have heq : responses = responses' :=
        List.right_unique_forall₂' (fun _ _ _ ha ha' => ha.unique ha') hv hv'
      rw [heq]
    | error e' =>
      obtain ⟨g, hg, hfail⟩ := hv'
      obtain ⟨r, -, hans⟩ := exists_right_of_forall₂ hv hg
      exact absurd hfail hans.not_failed
  | error e =>
    cases q' with
    | ok responses' =>
      obtain ⟨g, hg, hfail⟩ := hv
      obtain ⟨r, -, hans⟩ := exists_right_of_forall₂ hv' hg
      exact absurd hfail hans.not_failed
    | error e' => rfl

end

end PreparedGroup

end XofConformance
