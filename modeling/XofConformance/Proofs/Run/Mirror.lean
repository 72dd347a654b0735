import XofConformance.Proofs.Prepared.Validation
import XofConformance.Proofs.Run.Process

/-!
# The mirror of the input

What holds of every run that returns, however the subject behaves and whatever calls are lost: the
output has the groups and the tests of the input, in their order, none missing and none twice. Each
digest is one that the subject was heard to answer to the call of that very test.

    a run returns → the output mirrors the input, and no call was lost        (run_mirrors)
-/

namespace XofConformance

/-- What a subject was asked and what it answered, latest first. -/
abbrev Transcript := List (Call × Outcome)

/-- The subject together with a transcript. -/
def Subject.transcribed {σ : Type} (subject : Subject (StateM σ)) :
    Subject (StateM (σ × Transcript)) := fun c s =>
  let (outcome, t) := subject c s.1
  (outcome, (t, (c, outcome) :: s.2))

/-! ## Mirrors -/

/-- The entry of a functional test: its identifier, a digest from the transcript, and its output
length. The digest and the length are left out if they are empty and zero. -/
def TestCase.MirrorsDigest (log : Transcript) (algorithm : Text) (tgId : Number) (t : TestCase)
    (entry : Json) : Prop :=
  ∃ c args digest, t.prepare tgId = .ok c ∧ Functional.arguments c = .ok args ∧
    ({ op := algorithm, expected := 1, args }, .ok [digest]) ∈ log ∧
    entry = .object (("tcId", .number t.tcId) ::
      (textField "md" digest.toHex ++ numberField "outLen" t.outLen))

/-- The entry of a Monte Carlo test: its identifier and a hundred results. -/
def TestCase.MirrorsChain (t : TestCase) (entry : Json) : Prop :=
  ∃ rounds, rounds.length = 100 ∧ entry = .object [("tcId", .number t.tcId),
    (Text.ofString "resultsArray", .array rounds)]

/-- The entry of a test of a group. -/
def TestGroup.MirrorsTest (log : Transcript) (algorithm : Text) (g : TestGroup) (t : TestCase)
    (entry : Json) : Prop :=
  match TestType.ofName? g.testType with
  | some .functional => t.MirrorsDigest log algorithm g.tgId entry
  | some .monteCarlo => t.MirrorsChain entry
  | none => False

/-- The entry of a group: its identifier, and an entry for each of its tests in their order. -/
def TestGroup.Mirrors (log : Transcript) (algorithm : Text) (g : TestGroup) (entry : Json) :
    Prop :=
  ∃ entries, entry = .object [("tgId", .number g.tgId), ("tests", .array entries)] ∧
    List.Forall₂ (g.MirrorsTest log algorithm) g.tests entries

/-! ## Answers on record -/

section

variable {σ κ : Type} {subject : Subject (StateM σ)} {schedule : Schedule κ}

theorem run_transcribed {c : Call} {o : Outcome} {w w' : (σ × Transcript) × Unit}
    (h : Run (subject.transcribed c) w o w') : w'.1.2 = (c, o) :: w.1.2 := by
  obtain ⟨⟨s, log⟩, ⟨⟩⟩ := w
  obtain ⟨⟨s', log'⟩, ⟨⟩⟩ := w'
  have he : (o, (s', log')) = subject.transcribed c (s, log) := h
  unfold Subject.transcribed at he
  cases he
  rfl

/-- The answers on a transcript are the answers that were given. -/
def Records.transcribed (σ : Type) : Records ((σ × Transcript) × Unit) where
  Sound _ := True
  Posted _ _ _ := True
  Given w c o := (c, o) ∈ w.1.2

theorem transcribed_later {c : Call} {o : Outcome} {w w' : (σ × Transcript) × Unit}
    (h : Run (subject.transcribed c) w o w') :
    (Records.transcribed σ).Later w w' ∧ (Records.transcribed σ).Given w' c o := by
  have hlog := run_transcribed h
  constructor
  · refine ⟨trivial, id, fun {c' o'} hg => ?_⟩
    show (c', o') ∈ w'.1.2
    rw [hlog]
    exact List.mem_cons_of_mem _ hg
  · show (c, o) ∈ w'.1.2
    rw [hlog]
    exact List.mem_cons_self

/-- A subject with a transcript keeps its records up. -/
def Account.transcribed (subject : Subject (StateM σ)) (schedule : Schedule κ) :
    Account ({ subject := subject.transcribed, schedule } : Setting κ (StateM (σ × Transcript)))
    where
  toRecords := Records.transcribed σ
  put := by
    intro w w' c t _ h
    obtain ⟨-, rfl⟩ := run_pure.1 h
    exact ⟨Records.Later.refl trivial, trivial⟩
  answer _ _ h := transcribed_later h
  ask _ h := transcribed_later h

end

/-! ## Responses -/

section

variable {W : Type} {R : Records W} {w : W} {log : Transcript} {algorithm : Text}
  {g : TestGroup} {p : PreparedGroup} {t : TestCase} {c : PreparedCase}

/-- An answered functional test is written as an entry that mirrors it. -/
theorem mirrorsDigest_of_answered (hlog : ∀ {c o}, R.Given w c o → (c, o) ∈ log)
    (hprep : t.prepare g.tgId = .ok c) {r : TestResponse}
    (h : Functional.Answered R algorithm w c r) :
    t.MirrorsDigest log algorithm g.tgId r.toJson := by
  obtain ⟨args, results, ha, hg, hn, rfl⟩ := h
  obtain ⟨digest, rfl⟩ := List.length_eq_one_iff.1 hn
  obtain ⟨hid, hlen⟩ := TestCase.prepare_keeps hprep
  refine ⟨c, args, digest, hprep, ha, hlog hg, ?_⟩
  unfold TestResponse.toJson Functional.response
  rw [List.headD_cons, hid, hlen, List.isEmpty_nil, if_pos rfl, List.append_nil]

/-- An answered Monte Carlo test is written as an entry that mirrors it. -/
theorem mirrorsChain_of_answered (hprep : t.prepare g.tgId = .ok c) {r : TestResponse}
    {bounds : Bounds} (h : MonteCarlo.Answered R algorithm bounds w c r) :
    t.MirrorsChain r.toJson := by
  obtain ⟨results, hsteps, rfl⟩ := h
  have hlen : results.length = 100 := hsteps.length
  have hne : results.isEmpty = false := by
    rw [List.isEmpty_eq_false_iff_exists_mem]
    exact List.exists_mem_of_length_pos (by omega)
  refine ⟨results.map RoundResult.toJson, by rw [List.length_map, hlen], ?_⟩
  rw [← (TestCase.prepare_keeps hprep).1]
  simp only [TestResponse.toJson, hne]
  rfl

/-- An answered test is written as an entry that mirrors it. -/
theorem mirrorsTest_of_answered (hlog : ∀ {c o}, R.Given w c o → (c, o) ∈ log)
    (hgroup : g.Prepares p) (hprep : t.prepare g.tgId = .ok c) {r : TestResponse}
    (h : p.CaseAnswered R algorithm w c r) : g.MirrorsTest log algorithm t r.toJson := by
  unfold TestGroup.MirrorsTest
  rw [hgroup.testType]
  unfold PreparedGroup.CaseAnswered at h
  cases ht : p.testType with
  | functional =>
    rw [ht] at h
    exact mirrorsDigest_of_answered hlog hprep h
  | monteCarlo =>
    rw [ht] at h
    exact mirrorsChain_of_answered hprep h

/-- An answered group is written as an entry that mirrors it. -/
theorem mirrors_of_answered (hlog : ∀ {c o}, R.Given w c o → (c, o) ∈ log)
    (hgroup : g.Prepares p) {r : GroupResponse} (h : p.Answered R algorithm w r) :
    g.Mirrors log algorithm r.toJson := by
  refine ⟨r.tests.map TestResponse.toJson, ?_, ?_⟩
  · rw [← hgroup.tgId, ← h.tgId]
    rfl
  · rw [List.forall₂_map_right_iff]
    exact forall₂_trans hgroup.cases h.tests fun _ _ _ hprep ha =>
      mirrorsTest_of_answered hlog hgroup hprep ha

end

/-! ## Top theorem -/

/-- If a run on an idle pool returns, then its output mirrors its input group by group and test by
test, and none of the calls that were handed over was lost. -/
theorem VectorSet.run_mirrors {σ ε : Type} (subject : Subject (StateM σ))
    (schedule : Schedule (Desk ε)) (hrelease : schedule.Faithful) (algorithm : Text)
    (vs : VectorSet) {p p' : Pool (Desk ε)} (hp : p.IsIdle) {s s' : σ} {log : Transcript}
    {responses : List GroupResponse}
    (hrun : Id.run (((vs.run { subject := subject.transcribed, schedule } algorithm).run p).run
      (s, [])) = ((.ok responses, p'), (s', log))) :
    List.Forall₂ (TestGroup.Mirrors log algorithm) vs.groups
        (responses.map GroupResponse.toJson) ∧
      ∀ n, p.submitted ≤ n → n < p'.submitted → schedule.lost n = false := by
  have hends : Ends (vs.run { subject := subject.transcribed, schedule } algorithm)
      (p, ((s, []), ())) (.ok responses) (p', ((s', log), ())) := hrun.symm
  obtain ⟨-, -, hres⟩ :=
    ends_vectorSet (A := Account.transcribed subject schedule) hrelease hp trivial hends
  cases hprep : vs.prepare with
  | error f =>
    rw [hprep] at hres
    cases hres.1
  | ok groups =>
    rw [hprep] at hres
    obtain ⟨hall, hnone⟩ := hres
    refine ⟨?_, hnone⟩
    rw [List.forall₂_map_right_iff]
    exact forall₂_trans (VectorSet.forall₂_of_prepare hprep) hall fun _ _ _ hgroup ha =>
      mirrors_of_answered (fun hg => hg) hgroup ha

/-- A subject that answers with the number of calls it had before. -/
def Subject.counting : Subject (StateM Nat) := fun _ n => (.ok [[UInt8.ofNat n]], n + 1)

/-- Calls are taken up in reverse, and a third one would be lost. -/
def Schedule.reversing : Schedule (Desk Unit) :=
  { release := List.reverse, lost := fun n => n == 2 }

/-- The two tests put to the subject that counts. -/
def VectorSet.runCounted :=
  Id.run (((twoTests.run { subject := Subject.counting.transcribed, schedule := .reversing }
    "cSHAKE-128").run { client := { extra := () } }).run (0, []))

/-- The digests are the counts, each in the place of its own test. -/
theorem VectorSet.runCounted_mirrors :
    let responses : List GroupResponse := [{ tgId := .int 1, tests := [
      { tcId := .int 1, md := "01", outLen := .int 32 }, { tcId := .int 2, md := "00" }] }]
    runCounted.1.1.toOption = some responses ∧
      List.Forall₂ (TestGroup.Mirrors runCounted.2.2 "cSHAKE-128") twoTests.groups
        (responses.map GroupResponse.toJson) ∧
      ∀ n, 0 ≤ n → n < runCounted.1.2.submitted → Schedule.reversing.lost n = false := by
  intro responses
  have hresult : runCounted.1.1.toOption = some responses := by decide +kernel
  have hok : runCounted.1.1 = .ok responses := by
    cases hr : runCounted.1.1 with
    | error f =>
      rw [hr] at hresult
      cases hresult
    | ok rs =>
      rw [hr] at hresult
      exact congrArg Except.ok (Option.some.inj hresult)
  have hrun : runCounted =
      ((.ok responses, runCounted.1.2), (runCounted.2.1, runCounted.2.2)) := by
    rw [← hok]
  exact ⟨hresult, run_mirrors Subject.counting .reversing List.reverse_perm "cSHAKE-128" twoTests
    ⟨rfl, rfl⟩ hrun⟩

end XofConformance
