import XofConformance.Proofs.Comparison.Stored
import XofConformance.Proofs.Run.Callable
import XofConformance.Proofs.VectorSet.Envelope

/-!
# Runs that their files confirm

What a run returns is integers, digests and the identifiers of the vector set, in which none is
repeated. So the response document that is written for a run, with an envelope or without, can be
read as expected results of the same run, and the comparison passes every test of the set.

    a run returns → comparing its groups with their file passes every test  (run_confirmed_by_file)
-/

namespace XofConformance

/-! ## Exact answers -/

/-- A number that was encoded as a word is written as an integer. -/
theorem Bytes.isInt_of_encodeWord {n : Number} {b : Bytes} (h : encodeWord n = .ok b) :
    n.IsInt := by
  cases n with
  | int k => exact ⟨k, rfl⟩
  | float x =>
    unfold encodeWord at h
    split at h <;> cases h

theorem Bytes.isScalar_of_mem_toHex {b : Bytes} : ∀ c ∈ b.toHex, Text.IsScalar c :=
  fun _ hc => Text.isScalar_of_lt (Bytes.isPlain_of_mem_toHex hc).lt

variable {W : Type} {R : Records W} {w : W} {algorithm : Text} {c : PreparedCase} {r : TestResponse}

/-- The answer stands under an identifier, and is exact if that is an integer. -/
structure TestResponse.Answers (r : TestResponse) (tcId : Number) : Prop where
  tcId_eq : r.tcId = tcId
  isExact : tcId.IsInt → r.IsExact

theorem Functional.Answered.answers (h : Functional.Answered R algorithm w c r) :
    r.Answers c.tcId := by
  obtain ⟨args, results, ha, -, -, rfl⟩ := h
  obtain ⟨word, hword, -⟩ := exists_of_bind_eq_ok ha
  have hlen : c.outLen.IsInt := Number.isInt_bytes_iff.1 (Bytes.isInt_of_encodeWord hword)
  exact ⟨rfl, fun hid => ⟨hid, Bytes.isScalar_of_mem_toHex, hlen, nofun⟩⟩

theorem MonteCarlo.Steps.isExact {bounds : Bounds} {n : Nat} {s : MonteCarlo.State}
    {rounds : List RoundResult} (h : MonteCarlo.Steps R algorithm bounds w n s rounds) :
    ∀ round ∈ rounds, round.IsExact := by
  induction h with
  | done => exact nofun
  | step _ _ ih => exact List.forall_mem_cons.2 ⟨⟨Bytes.isScalar_of_mem_toHex, _, rfl⟩, ih⟩

theorem MonteCarlo.Answered.answers {bounds : Bounds}
    (h : MonteCarlo.Answered R algorithm bounds w c r) : r.Answers c.tcId := by
  obtain ⟨rounds, hsteps, rfl⟩ := h
  exact ⟨rfl, fun hid => ⟨hid, nofun, ⟨0, rfl⟩, hsteps.isExact⟩⟩

theorem PreparedGroup.CaseAnswered.answers {g : PreparedGroup}
    (h : g.CaseAnswered R algorithm w c r) : r.Answers c.tcId := by
  unfold CaseAnswered at h
  cases ht : g.testType with
  | functional =>
    rw [ht] at h
    exact Functional.Answered.answers h
  | monteCarlo =>
    rw [ht] at h
    exact MonteCarlo.Answered.answers h

/-! ## Responses -/

/-- The group is answered under its identifier, test by test. -/
structure GroupResponse.Answers (r : GroupResponse) (g : TestGroup) : Prop where
  tgId_eq : r.tgId = g.tgId
  tests : List.Forall₂ (fun t a => a.Answers t.tcId) g.tests r.tests

theorem PreparedGroup.Answered.answers {g : TestGroup} {p : PreparedGroup} {r : GroupResponse}
    (hprep : g.Prepares p) (h : p.Answered R algorithm w r) : r.Answers g := by
  refine ⟨h.tgId.trans hprep.tgId, forall₂_trans hprep.cases h.tests fun t c a hc ha => ?_⟩
  rw [← (TestCase.prepare_keeps hc).1]
  exact ha.answers

variable {vs : VectorSet} {responses : List GroupResponse}

/-- The answers to a vector set that was prepared are exact, and no identifier is repeated. -/
theorem identified_of_answers (hids : ∀ n ∈ vs.identifiers, n.IsInt)
    {prepared : List PreparedGroup} (hprep : vs.prepare = .ok prepared)
    (h : List.Forall₂ (fun g r => r.Answers g) vs.groups responses) :
    Comparison.Identified responses := by
  obtain ⟨hgroups, htests⟩ := VectorSet.nodup_of_prepare hids hprep
  refine ⟨fun r hr => ?_, ?_, fun r hr => ?_⟩
  · obtain ⟨g, hg, hanswers⟩ := exists_left_of_forall₂ h hr
    refine ⟨hanswers.tgId_eq ▸ VectorSet.isInt_tgId hids g hg, fun a ha => ?_⟩
    obtain ⟨t, ht, hanswer⟩ := exists_left_of_forall₂ hanswers.tests ha
    exact hanswer.isExact (VectorSet.isInt_tcId hids g hg t ht)
  · rw [map_eq_of_forall₂ h fun _ _ hanswers => hanswers.tgId_eq]
    exact hgroups
  · obtain ⟨g, hg, hanswers⟩ := exists_left_of_forall₂ h hr
    rw [map_eq_of_forall₂ hanswers.tests fun _ _ hanswer => hanswer.tcId_eq]
    exact htests g hg

theorem testCount_of_answers (h : List.Forall₂ (fun g r => r.Answers g) vs.groups responses) :
    (responses.flatMap (·.tests)).length = vs.testCount := by
  unfold VectorSet.testCount
  rw [List.length_flatMap, List.length_flatMap,
    map_eq_of_forall₂ h fun _ _ hanswers => hanswers.tests.length_eq.symm]

/-! ## Top theorem -/

variable {ε : Type} {m : Type → Type} [Monad m] [HasRuns m W]

/-- An account of nothing. -/
def Account.silent (env : Setting (Desk ε) m) : Account env where
  Sound _ := True
  Posted _ _ _ := True
  Given _ _ _ := True
  put _ _ := ⟨⟨trivial, id, id⟩, trivial⟩
  answer _ _ _ := ⟨⟨trivial, id, id⟩, trivial⟩
  ask _ _ := ⟨⟨trivial, id, id⟩, trivial⟩

/-- If a run on an idle pool returns, then its groups, compared with the response document that is
written for them, have passed every test of the set. -/
theorem VectorSet.run_confirmed_by_file [LawfulMonad m] {env : Setting (Desk ε) m}
    (hrelease : env.schedule.Faithful) (algorithm : Text) {vs : VectorSet}
    (hids : ∀ n ∈ vs.identifiers, n.IsInt) {p p' : Pool (Desk ε)} (hp : p.IsIdle) {w w' : W}
    (hrun : Ends (vs.run env algorithm) (p, w) (.ok responses) (p', w')) :
    ∃ b report,
      (Json.fileText (Envelope.wrap vs algorithm (CommandLine.groupsJson responses))).toUtf8? =
        some b ∧
      Comparison.compareResponses (.array (CommandLine.groupsJson responses)) (.bytes b) =
        .ok report ∧
      report.ran = vs.testCount ∧ report.passed = vs.testCount ∧ report.failed = 0 := by
  obtain ⟨-, -, hres⟩ := ends_vectorSet (A := Account.silent env) hrelease hp trivial hrun
  cases hprep : vs.prepare with
  | error f =>
    rw [hprep] at hres
    cases hres.1
  | ok prepared =>
    rw [hprep] at hres
    have hanswers : List.Forall₂ (fun g r => r.Answers g) vs.groups responses :=
      forall₂_trans (VectorSet.forall₂_of_prepare hprep) hres.1 fun _ _ _ hgroup ha =>
        ha.answers hgroup
    have hidentified := identified_of_answers hids hprep hanswers
    obtain ⟨b, hb, hopens⟩ :=
      Comparison.exists_opens_file algorithm (VectorSet.isInt_vsId hids) hidentified.exact
    obtain ⟨report, hreport, hran, hpassed, hfailed⟩ :=
      Comparison.exists_report_stored hidentified hopens
    rw [testCount_of_answers hanswers] at hran hpassed
    exact ⟨b, report, hb, hreport, hran, hpassed, hfailed⟩

/-- The run of a subject with a state ends as its state transformer says. -/
theorem VectorSet.ends_of_run {σ : Type} {subject : Subject (StateM σ)}
    {schedule : Schedule (Desk ε)} {p p' : Pool (Desk ε)} {s s' : σ}
    {q : Except Fault (List GroupResponse)}
    (h : Id.run (((vs.run { subject, schedule } algorithm).run p).run s) = ((q, p'), s')) :
    Ends (vs.run { subject, schedule } algorithm) (p, (s, ())) q (p', (s', ())) := h.symm

/-- The two tests in an envelope. -/
def VectorSet.envelopedTests : VectorSet :=
  { twoTests with vsId := some (.int 7), isSample := some true, acvVersion := some "1.0" }

/-- The two tests put to the subject that counts. -/
def VectorSet.runEnveloped :=
  Id.run (((envelopedTests.run { subject := Subject.counting, schedule := .reversing }
    "cSHAKE-128").run { client := { extra := () } }).run 0)

/-- The digests are the counts, and both tests are passed when they are read from the file. -/
theorem VectorSet.envelopedTests_confirmed :
    let responses : List GroupResponse := [{ tgId := .int 1, tests := [
      { tcId := .int 1, md := "01", outLen := .int 32 }, { tcId := .int 2, md := "00" }] }]
    runEnveloped.1.1.toOption = some responses ∧ ∃ b report,
      (Json.fileText (Envelope.wrap envelopedTests "cSHAKE-128"
        (CommandLine.groupsJson responses))).toUtf8? = some b ∧
      Comparison.compareResponses (.array (CommandLine.groupsJson responses)) (.bytes b) =
        .ok report ∧
      report.ran = 2 ∧ report.passed = 2 ∧ report.failed = 0 := by
  intro responses
  have hresult : runEnveloped.1.1.toOption = some responses := by decide +kernel
  have hok : runEnveloped.1.1 = .ok responses := by
    cases hr : runEnveloped.1.1 with
    | error f =>
      rw [hr] at hresult
      cases hresult
    | ok rs =>
      rw [hr] at hresult
      exact congrArg Except.ok (Option.some.inj hresult)
  have hids : ∀ n ∈ envelopedTests.identifiers, n.IsInt := by
    have hvalues : envelopedTests.identifiers = [.int 7, .int 1, .int 1, .int 2] := by decide
    rw [hvalues]
    simp [Number.IsInt]
  have hrun : runEnveloped = ((.ok responses, runEnveloped.1.2), runEnveloped.2) := by
    rw [← hok]
  refine ⟨hresult, run_confirmed_by_file ?_ "cSHAKE-128" hids ⟨rfl, rfl⟩ (ends_of_run hrun)⟩
  exact List.reverse_perm

end XofConformance
