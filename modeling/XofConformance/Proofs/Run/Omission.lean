import XofConformance.Proofs.Comparison.Omission
import XofConformance.Proofs.Run.Confirmed

/-!
# Answers that leave nothing out

The answer to a test leaves out an empty digest and a length of zero, and the round of a chain a
length of zero. So an answer is as expected by the test that spells out all its values if it has no
such value to leave out, and only then: an empty digest or a zero that is told is missed.

    a group is run → each answer passes its spelled-out test if and only if nothing in it is empty
                                                                     (passes_spelledOut_iff)
-/

namespace XofConformance

variable {W : Type} {R : Records W} {w w' : W} {algorithm : Text} {c : PreparedCase}
  {r : TestResponse}

/-! ## Answers of the runners -/

/-- The length that a state reports is zero if and only if its digest is empty. -/
theorem MonteCarlo.State.isZero_outLen_iff (s : State) :
    s.result.outLen.isZero = true ↔ s.result.md = [] := by
  show (Number.int s.msg.bitLength).isZero = true ↔ s.msg.toHex = []
  rw [Number.isZero_int, Bytes.toHex_eq_nil_iff]
  unfold Bytes.bitLength
  rw [← List.length_eq_zero_iff]
  omega

theorem MonteCarlo.Steps.isZero_outLen_iff {bounds : Bounds} {n : Nat} {s : State}
    {rounds : List RoundResult} (h : Steps R algorithm bounds w n s rounds) :
    ∀ round ∈ rounds, round.outLen.isZero = true ↔ round.md = [] := by
  induction h with
  | done => exact nofun
  | @step n s next results _ _ ih =>
    exact List.forall_mem_cons.2 ⟨next.isZero_outLen_iff, ih⟩

theorem Functional.Answered.agrees_spelledOut_iff (h : Functional.Answered R algorithm w c r) :
    Comparison.Agrees r.toJson (r.spelledOut .functional) ↔ r.NothingEmpty .functional := by
  obtain ⟨args, results, ha, -, -, rfl⟩ := h
  obtain ⟨word, hword, -⟩ := exists_of_bind_eq_ok ha
  exact Comparison.agrees_spelledOut_functional
    (Number.isInt_bytes_iff.1 (Bytes.isInt_of_encodeWord hword))

theorem MonteCarlo.Answered.agrees_spelledOut_iff {bounds : Bounds}
    (h : MonteCarlo.Answered R algorithm bounds w c r) :
    Comparison.Agrees r.toJson (r.spelledOut .monteCarlo) ↔ r.NothingEmpty .monteCarlo := by
  obtain ⟨rounds, hsteps, rfl⟩ := h
  have hlength : rounds.length = roundCount := hsteps.length
  have hne : rounds ≠ [] := by
    rintro rfl
    cases hlength
  rw [Comparison.agrees_spelledOut_monteCarlo hne hsteps.isExact]
  refine forall₂_congr fun round hround => ?_
  have hzero := hsteps.isZero_outLen_iff round hround
  rw [← Bool.not_eq_true, hzero]
  exact (and_self_iff (a := round.md ≠ [])).symm

theorem PreparedGroup.CaseAnswered.agrees_spelledOut_iff {g : PreparedGroup}
    (h : g.CaseAnswered R algorithm w c r) :
    Comparison.Agrees r.toJson (r.spelledOut g.testType) ↔ r.NothingEmpty g.testType := by
  unfold CaseAnswered at h
  cases ht : g.testType with
  | functional =>
    rw [ht] at h
    exact Functional.Answered.agrees_spelledOut_iff h
  | monteCarlo =>
    rw [ht] at h
    exact MonteCarlo.Answered.agrees_spelledOut_iff h

/-! ## Top theorem -/

variable {ε : Type} {m : Type → Type} [Monad m] [HasRuns m W]

open Comparison in
/-- Whatever the subject answers: if a response holds an answer of a group that was run, and a
document holds the test that spells it out, then comparing the two gives a report with one case of
that test, and it has passed if and only if the answer has no empty digest and no length of zero. -/
theorem PreparedGroup.passes_spelledOut_iff [LawfulMonad m] {env : Setting (Desk ε) m}
    (hrelease : env.schedule.Faithful) (g : PreparedGroup) {p p' : Pool (Desk ε)} (hp : p.IsIdle)
    {response : GroupResponse}
    (hrun : Ends (g.run env algorithm) (p, w) (.ok response) (p', w')) (hr : r ∈ response.tests)
    {d : Document} {gotGroups groups : List Json} {a e : Comparison.Entry} (hd : Opens d groups)
    (hgot : Indexable gotGroups) (hgroups : Indexable groups) (hrounds : HasRoundLists groups)
    (ha : Stands gotGroups a) (he : Stands groups e) (hsame : a.isAs e = true)
    (hanswer : a.test = r.toJson) (hexpected : e.test = r.spelledOut g.testType) :
    ∃ report c, compareResponses (.array gotGroups) d = .ok report ∧
      report.cases.filter (fun c => c.isFor e) = [c] ∧
      (c.failure = none ↔ r.NothingEmpty g.testType) := by
  obtain ⟨-, -, -, -, hanswered, -⟩ := ends_run (A := Account.silent env) hrelease hp trivial hrun
  obtain ⟨c, -, hc⟩ := exists_left_of_forall₂ hanswered.tests hr
  obtain ⟨report, case, hreport, hone, hpassed⟩ :=
    Stands.exists_case hd hgot hgroups hrounds ha he hsame
  rw [hanswer, hexpected, hc.agrees_spelledOut_iff] at hpassed
  exact ⟨report, case, hreport, hone, hpassed⟩

namespace PreparedGroup

/-- A subject that answers every call with one byte string. -/
def constantly (md : Bytes) : Subject (StateM Nat) := fun _ n => (.ok [md], n)

/-- The group of one test, put to that subject on a new pool. -/
def runConstantly (outLen : Number) (md : Bytes) :=
  Id.run ((((oneTest outLen).run { subject := constantly md, schedule := .reversing }
    "cSHAKE-128").run { client := { extra := () } }).run 0)

/-- An answer to that test. -/
def oneAnswer (md : Text) (outLen : Number) : TestResponse := { tcId := .int 1, md, outLen }

/-- A group that is written with one test. -/
def writtenGroup (test : Json) : Json := .object [("tgId", .int 1), ("tests", .array [test])]

open Comparison

/-- A digest of four bytes passes the test that spells it out. -/
theorem oneTest_passes_spelledOut :
    let answer := oneAnswer "01020304" (.int 32)
    let test := answer.spelledOut .functional
    (runConstantly (.int 32) [1, 2, 3, 4]).1.1.toOption =
      some { tgId := .int 1, tests := [answer] } ∧
    ∃ report c, compareResponses (.array [writtenGroup answer.toJson])
        (.value (.object [("testGroups", .array [writtenGroup test])])) = .ok report ∧
      report.cases.filter (fun c => c.isFor ⟨.int 1, .int 1, test⟩) = [c] ∧
      c.failure = none := by
  intro answer test
  have hresult : (runConstantly (.int 32) [1, 2, 3, 4]).1.1.toOption =
      some { tgId := .int 1, tests := [answer] } := by decide +kernel
  rcases hrun : runConstantly (.int 32) [1, 2, 3, 4] with ⟨⟨q, p'⟩, s'⟩
  rw [hrun] at hresult
  cases q with
  | error f => cases hresult
  | ok response =>
    obtain rfl := Option.some.inj hresult
    have hgot : Indexable [writtenGroup answer.toJson] :=
      { lists := List.forall_mem_singleton.2 ⟨_, rfl⟩
        groupKeys := by decide +kernel
        testKeys := by decide +kernel }
    have hgroups : Indexable [writtenGroup test] :=
      { lists := List.forall_mem_singleton.2 ⟨_, rfl⟩
        groupKeys := by decide +kernel
        testKeys := by decide +kernel }
    have hrounds : HasRoundLists [writtenGroup test] := List.forall_mem_singleton.2 nofun
    have hfaithful : Schedule.reversing.Faithful := List.reverse_perm
    have hnothing : answer.NothingEmpty .functional := ⟨by decide, by decide⟩
    have hends : Ends ((oneTest (.int 32)).run
        { subject := constantly [1, 2, 3, 4], schedule := .reversing } "cSHAKE-128")
        ({ client := { extra := () } }, (0, ())) (.ok { tgId := .int 1, tests := [answer] })
        (p', (s', ())) := hrun.symm
    have hstands : ∀ t, t.field "tcId" = .int 1 → objectsIn [t] = [t] →
        Stands [writtenGroup t] ⟨.int 1, .int 1, t⟩ := fun t htcId hobject =>
      ⟨[], _, [], [], [], rfl, hobject, rfl, htcId.symm, nofun, nofun⟩
    obtain ⟨report, c, hreport, hone, hpassed⟩ := passes_spelledOut_iff hfaithful
      (oneTest (.int 32)) ⟨rfl, rfl⟩ hends (List.mem_singleton_self answer)
      (d := .value (.object [("testGroups", .array [writtenGroup test])]))
      ⟨_, _, _, rfl, rfl, rfl⟩ hgot hgroups hrounds (hstands _ rfl rfl) (hstands _ rfl rfl)
      (by decide) rfl rfl
    exact ⟨rfl, report, c, hreport, hone, hpassed.2 hnothing⟩

/-- A digest of no bytes does not: the answer leaves it out. -/
theorem oneTest_misses_spelledOut :
    let answer := oneAnswer [] (.int 0)
    let test := answer.spelledOut .functional
    (runConstantly (.int 0) []).1.1.toOption = some { tgId := .int 1, tests := [answer] } ∧
    ∃ report, compareResponses (.array [writtenGroup answer.toJson])
        (.value (.object [("testGroups", .array [writtenGroup test])])) = .ok report ∧
      report.ran = 1 ∧ report.failed = 1 := by
  intro answer test
  refine ⟨by decide +kernel, ?_⟩
  have hcheck : (match compareResponses (.array [writtenGroup answer.toJson])
        (.value (.object [("testGroups", .array [writtenGroup test])])) with
      | .ok report => decide (report.ran = 1 ∧ report.failed = 1)
      | .error _ => false) = true := by
    decide +kernel
  split at hcheck
  · next report hreport => exact ⟨report, hreport, of_decide_eq_true hcheck⟩
  · cases hcheck

end PreparedGroup

end XofConformance
