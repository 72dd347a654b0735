import XofConformance.Proofs.CommandLine.Reporting

/-!
# Runs that stop

A run whose report tells of a fault ends with the exit code of a failure. If the fault has come up
before the answers were there, nothing was written but the report. The response is written before
the expected results are looked at, so if these are of no use the response is there as well.

    doc.field "error" ≠ .null → code = 2 ∧ (earlier = [] ∨ earlier is the response of answers that
      cannot be compared)                                                            (run_stopped)
-/

namespace XofConformance.CommandLine

section

variable {m : Type → Type} [Monad m] {W : Type} [HasRuns m W]

/-- Where the fault of a report has come up in a run from a world on, and the files that were
written by then. -/
inductive StoppedAt (host : Host m) (o : Options) (w : W) (f : Fault) : Archive → Prop
  | settingUp {actor : Option Text} : Unprepared host o w actor f → StoppedAt host o w f []
  | asking {c : Config} {t : Task} {w' : W} : Prepared host o w c t w' →
    Unanswered host c t w' f → StoppedAt host o w f []
  | judging {c : Config} {t : Task} {groups : List GroupResponse} {w' : W} :
    Answered host o w c t groups w' → Judged host o groups w' (.error f) →
    StoppedAt host o w f (t.responseFile o groups)

variable {host : Host m} {o : Options} {facts : Facts} {files : Archive} {w : W}
  {r : Except Fault Verdict}

theorem Course.stoppedAt (h : Course host o w r facts files)
    (hfault : (Report.ofStages facts r).fault? ≠ none) :
    ∃ f, (Report.ofStages facts r).fault? = some f ∧ StoppedAt host o w f files := by
  cases h with
  | unprepared hf => exact ⟨_, rfl, .settingUp hf⟩
  | unanswered hprepared hf => exact ⟨_, rfl, .asking hprepared hf⟩
  | incomparable hanswered hj => exact ⟨_, rfl, .judging hanswered hj⟩
  | unchecked | compared => exact absurd rfl hfault

variable [LawfulMonad m]

/-- A run whose report tells of a fault returns 2, and it has written nothing before the report if
the fault has come up before the answers were there. If the answers were there and only cannot be
compared with what is expected, their response was written, as far as it was asked for. -/
theorem run_stopped {w w' : W} {code : Nat}
    (h : Run (run host.archived o) (([] : Archive), w) (.ok code) (files, w')) :
    (files = [] ∧ code = 2) ∨ ∃ doc earlier w₁,
      files = earlier ++ [(Path.normal o.report, Json.fileText doc)] ∧
      Run (absence host o) w none w₁ ∧
      (doc.field "error" ≠ .null → code = 2 ∧
        ∃ f, doc.field "error" = Report.faultJson f ∧ StoppedAt host o w₁ f earlier) := by
  rcases run_cases h with hnothing | ⟨w₁, r, facts, earlier, habsence, hcourse, rfl, rfl⟩
  · exact Or.inl hnothing
  refine Or.inr ⟨_, earlier, w₁, rfl, habsence, fun herror => ?_⟩
  rw [Ne, Report.field_error_eq_null_iff] at herror
  obtain ⟨f, hf, hstopped⟩ := hcourse.stoppedAt herror
  have hcode : (Report.ofStages facts r).exitCode ≠ 0 := fun hzero =>
    herror ((Report.ok_iff _).1 (Json.bool.inj ((Report.coherent _).success.1 hzero))).1
  refine ⟨((Report.coherent _).failure hcode).1, f, ?_, hstopped⟩
  rw [Report.field_error, hf]
  rfl

end

/-! ## Expected results that are no document -/

/-- The vector set of one test is run, and compared with what is no document. -/
def Options.brokenExpectation : Options := { Options.oneTest with expected := some "exp.json" }

theorem outcome_brokenExpectation :
    (Options.brokenExpectation).outcome.1.1.toOption = some 2 ∧
      (Options.brokenExpectation).outcome.1.2.map Prod.fst =
        [Text.ofString "o.json", Text.ofString "rep.json"] := by decide +kernel

theorem run_brokenExpectation_stopped :
    ∃ files s, Run (run Host.oneAnswer.archived .brokenExpectation)
        (([] : Archive), Store.oneTest, ()) (.ok 2) (files, s, ()) ∧
      files.map Prod.fst = [Text.ofString "o.json", Text.ofString "rep.json"] ∧
      ((files = [] ∧ 2 = 2) ∨ ∃ doc earlier w₁,
        files = earlier ++ [(Path.normal (Options.brokenExpectation).report, Json.fileText doc)] ∧
        Run (absence Host.oneAnswer .brokenExpectation) (Store.oneTest, ()) none w₁ ∧
        (doc.field "error" ≠ .null → 2 = 2 ∧
          ∃ f, doc.field "error" = Report.faultJson f ∧
            StoppedAt Host.oneAnswer .brokenExpectation w₁ f earlier)) := by
  obtain ⟨hcode, hnames⟩ := outcome_brokenExpectation
  have hrun := Options.run_outcome 2 hcode
  exact ⟨_, _, hrun, hnames, run_stopped hrun⟩

/-- What the stages of the run of options come to on the store. -/
def Options.staged (o : Options) : Except Fault Verdict × Facts :=
  let ready := (Id.run (((absence Host.oneAnswer.archived o).run []).run Store.oneTest)).2
  (Id.run ((((stages Host.oneAnswer.archived o).run
    { vectorsFile := Path.normal o.vectors }).run []).run ready)).1.1

theorem Options.eq_staged {o : Options} {facts : Facts} {r : Except Fault Verdict}
    {earlier : Archive} {v v' : Store Unit × Unit}
    (habsence : Run (absence Host.oneAnswer.archived o) (([] : Archive), Store.oneTest, ()) none
      (([] : Archive), v))
    (hstages : Ends (stages Host.oneAnswer.archived o)
      ({ vectorsFile := Path.normal o.vectors }, ([] : Archive), v) r (facts, earlier, v')) :
    (r, facts) = o.staged := by
  have hready : ((none, []), v.1) =
      Id.run (((absence Host.oneAnswer.archived o).run []).run Store.oneTest) := habsence
  have hresult : (((r, facts), earlier), v'.1) = Id.run ((((stages Host.oneAnswer.archived o).run
      { vectorsFile := Path.normal o.vectors }).run []).run v.1) := hstages
  unfold staged
  rw [← hready]
  exact congrArg (fun result => result.1.1) hresult

/-- The report tells of a fault, and still the response was written. -/
theorem run_brokenExpectation_leaves_response :
    ∃ response doc s, Run (run Host.oneAnswer.archived .brokenExpectation)
        (([] : Archive), Store.oneTest, ()) (.ok 2)
        ([(Text.ofString "o.json", response), (Text.ofString "rep.json", Json.fileText doc)], s, ()) ∧
      doc.field "error" ≠ .null := by
  obtain ⟨hcode, hnames⟩ := outcome_brokenExpectation
  have hrun := Options.run_outcome 2 hcode
  have hfault : (Report.ofStages (Options.brokenExpectation).staged.2
      (Options.brokenExpectation).staged.1).fault?.isSome = true := by decide +kernel
  have hreport : Path.normal (Options.brokenExpectation).report = Text.ofString "rep.json" := by
    decide +kernel
  rcases run_stages hrun with ⟨hnothing, -⟩ | ⟨r, facts, earlier, v, v', -, habsence, hstages,
    hfiles, -⟩
  · rw [hnothing] at hnames
    cases hnames
  rw [← Options.eq_staged habsence hstages] at hfault
  rw [hfiles] at hnames hrun
  rw [hreport] at hrun
  obtain ⟨response, rfl⟩ : ∃ response, earlier = [(Text.ofString "o.json", response)] := by
    rw [List.map_append, List.map_singleton] at hnames
    have hsplit : earlier.map Prod.fst ++ [_] =
        [Text.ofString "o.json"] ++ [Text.ofString "rep.json"] := hnames
    obtain ⟨hearlier, -⟩ := List.append_inj' hsplit rfl
    obtain ⟨⟨path, response⟩, rfl, hpath⟩ := List.map_eq_singleton_iff.1 hearlier
    exact ⟨response, by rw [← hpath]⟩
  refine ⟨response, _, _, hrun, ?_⟩
  rw [Ne, Report.field_error_eq_null_iff]
  intro hnone
  rw [hnone] at hfault
  cases hfault

end XofConformance.CommandLine
