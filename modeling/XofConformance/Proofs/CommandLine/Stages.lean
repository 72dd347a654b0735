import XofConformance.Proofs.CommandLine.Archive

/-!
# The stages of a run

Every stage either stops the run with a fault or hands on what it has found out. A run that ends in
a way that the domain foresees has therefore taken one of five courses: it did not get to know what
it is to run; nobody answered; the expected results are none; there are no expected results; or the
answers were compared with them. The course tells the files that were written by then. Each of its
parts begins in the world that the part before it has led to, so the settings, the task, the
answers and the fault are those of one run.

    Ends (stages host.archived o) (facts, [], w) r v → Course host o w r v.1 v.2.1  (course_of_ends)
-/

namespace XofConformance.CommandLine

/-! ## Steps of a stage -/

section

variable {m : Type → Type} [Monad m] {W : Type} [HasRuns m W] {α β : Type} {facts : Facts}
  {w : W} {r : Except Fault β} {v v' : Facts × W}

theorem ends_orStop_bind {x : Except Fault α} {f : α → Stage m β} :
    Ends (orStop x >>= f) v r v' ↔
      (∃ e, x = .error e ∧ r = .error e ∧ v' = v) ∨ ∃ a, x = .ok a ∧ Ends (f a) v r v' :=
  ends_liftExcept_bind

variable [LawfulMonad m]

theorem ends_onHost_bind {x : m α} {f : α → Stage m β} :
    Ends (onHost x >>= f) (facts, w) r v ↔ ∃ a w', Run x w a w' ∧ Ends (f a) (facts, w') r v := by
  have hlift {a : Except Fault α} {u : Facts × W} :
      Ends (onHost x) (facts, w) a u ↔ ∃ b, (Run x w b u.2 ∧ u.1 = facts) ∧ a = .ok b := by
    unfold onHost
    rw [ends_lift]
    simp only [run_liftState]
  rw [ends_bind]
  constructor
  · rintro (⟨e, he, -⟩ | ⟨a, ⟨facts', w'⟩, ha, hf⟩)
    · obtain ⟨b, -, hb⟩ := hlift.1 he
      cases hb
    · obtain ⟨b, ⟨hb, rfl⟩, he⟩ := hlift.1 ha
      cases he
      exact ⟨a, w', hb, hf⟩
  · rintro ⟨a, w', ha, hf⟩
    exact Or.inr ⟨a, (facts, w'), hlift.2 ⟨a, ⟨ha, rfl⟩, rfl⟩, hf⟩

theorem ends_modify_bind {change : Facts → Facts} {f : PUnit → Stage m β} :
    Ends (modify change >>= f) (facts, w) r v ↔ Ends (f ⟨⟩) (change facts, w) r v := by
  have hmodify {a : Except Fault PUnit} {u : Facts × W} :
      Ends (modify change : Stage m PUnit) (facts, w) a u ↔ u = (change facts, w) ∧ a = .ok ⟨⟩ := by
    show Ends (ExceptT.lift (modify change : StateT Facts m PUnit)) (facts, w) a u ↔ _
    rw [ends_lift]
    simp only [run_modify]
    exact ⟨fun ⟨_, hu, ha⟩ => ⟨hu, ha⟩, fun ⟨hu, ha⟩ => ⟨⟨⟩, hu, ha⟩⟩
  rw [ends_bind]
  constructor
  · rintro (⟨e, he, -⟩ | ⟨⟨⟩, u, ha, hf⟩)
    · cases (hmodify.1 he).2
    · obtain ⟨rfl, -⟩ := hmodify.1 ha
      exact hf
  · intro h
    exact Or.inr ⟨⟨⟩, _, hmodify.2 ⟨rfl, rfl⟩, h⟩

end

/-- The result is one that the domain foresees. -/
def Foreseen {α : Type} (r : Except Fault α) : Prop := ∀ why, r ≠ .error (.defect why)

theorem foreseen_ok {α : Type} {a : α} : Foreseen (.ok a : Except Fault α) :=
  fun _ he => by cases he

theorem foreseen_error {α β : Type} {f : Fault} (h : Foreseen (.error f : Except Fault α)) :
    Foreseen (.error f : Except Fault β) := fun why he => by
  cases he
  exact h why rfl

section

variable {m : Type → Type} [Monad m] [LawfulMonad m] {W : Type} [HasRuns m W] {β : Type}
  {host : Host m} {facts : Facts} {files : Archive} {w : W} {r : Except Fault β}
  {v : Facts × Archive × W}

/-- A file that is needed was read, unless the run ends unforeseen. -/
theorem read_of_ends {path : Text} {f : Bytes → Stage (StateT Archive m) β} (hr : Foreseen r)
    (h : Ends (readFile host.archived path >>= f) (facts, files, w) r v) :
    ∃ b w', Run (host.read (Path.normal path)) w (.ok b) w' ∧
      Ends (f b) (facts, files, w') r v := by
  rcases ends_bind.1 h with ⟨e, he, rfl⟩ | ⟨b, u, hb, hf⟩
  · obtain ⟨q, _, -, hq⟩ := ends_onHost_bind.1 he
    cases q with
    | ok b => cases (ends_pure.1 hq).1
    | error why =>
      cases (ends_throw.1 hq).1
      exact absurd rfl (hr _)
  · obtain ⟨q, ⟨files', w'⟩, hread, hq⟩ := ends_onHost_bind.1 hb
    obtain ⟨hread, rfl⟩ := run_liftState.1 hread
    cases q with
    | ok b' =>
      obtain ⟨he, rfl⟩ := ends_pure.1 hq
      cases he
      exact ⟨b, w', hread, hf⟩
    | error why => cases (ends_throw.1 hq).1

/-- A file that is to be written is in the archive, unless the run ends unforeseen. -/
theorem written_of_ends {path content : Text} {f : Unit → Stage (StateT Archive m) β}
    (hr : Foreseen r) (h : Ends (writeFile host.archived path content >>= f) (facts, files, w) r v) :
    ∃ w', Run (host.write (Path.normal path) content) w (.ok ()) w' ∧
      Ends (f ()) (facts, files ++ [(Path.normal path, content)], w') r v := by
  rcases ends_bind.1 h with ⟨e, he, rfl⟩ | ⟨⟨⟩, u, hb, hf⟩
  · obtain ⟨q, _, -, hq⟩ := ends_onHost_bind.1 he
    cases q with
    | ok b => cases (ends_pure.1 hq).1
    | error why =>
      cases (ends_throw.1 hq).1
      exact absurd rfl (hr _)
  · obtain ⟨q, ⟨files', w'⟩, hwrite, hq⟩ := ends_onHost_bind.1 hb
    obtain ⟨hwritten, rfl⟩ := run_archived_write hwrite
    cases q with
    | ok u =>
      obtain ⟨-, rfl⟩ := ends_pure.1 hq
      exact ⟨w', hwritten, hf⟩
    | error why => cases (ends_throw.1 hq).1

end

/-! ## Courses -/

/-- What is known of a run once it has got to its settings, or to a fault. -/
def Facts.settled (facts : Facts) : Except Fault Config → Facts
  | .ok c => { facts with actor := some c.actor }
  | .error _ => facts

/-- What is known of a run once it has got to its task, or to a fault. -/
def Facts.tasked (facts : Facts) : Except Fault Task → Facts
  | .ok t => { facts with
      algorithm := some t.algorithm.name
      groups := t.vectors.groups.length
      tests := t.vectors.testCount }
  | .error _ => facts

/-- What is known of a run once its task is known. -/
def Task.facts (o : Options) (c : Config) (t : Task) : Facts where
  vectorsFile := Path.normal o.vectors
  actor := some c.actor
  algorithm := some t.algorithm.name
  groups := t.vectors.groups.length
  tests := t.vectors.testCount

/-- The file of the response, if there is to be one. -/
def Task.responseFile (o : Options) (t : Task) (groups : List GroupResponse) : Archive :=
  (o.out.map fun path => (Path.normal path, Json.fileText (t.response groups))).toList

/-- The file of the suite, if there is to be one. -/
def Task.suiteFile (o : Options) (t : Task) (r : Comparison.Report) : Except Fault Archive :=
  match o.junit with
  | none => .ok []
  | some path => do
    return [(Path.normal path, ← Junit.report ("xof." ++ t.algorithm.name) (r.cases.map (·.toJson)))]

section

variable {m : Type → Type} [Monad m] {W : Type} [HasRuns m W]

/-- The file of the options, as the host reads it. -/
inductive Options.ReadsFile (host : Host m) (o : Options) (w : W) : Option Config.File → W → Prop
  | none (h : o.config = none) : o.ReadsFile host w none w
  | some {path : Text} {content : Except FileFault Bytes} {w' : W} (h : o.config = some path)
    (read : Run (host.read (Path.normal path)) w content w') :
    o.ReadsFile host w (some { path := Path.normal path, content }) w'

/-- The host tells of a file and of an environment, and together with the options these come to
settings or to a fault. -/
def Options.Configures (host : Host m) (o : Options) (w : W) (r : Except Fault Config) (w' : W) :
    Prop :=
  ∃ file env w₁, o.ReadsFile host w file w₁ ∧ Run host.environment w₁ env w' ∧
    (Config.load file env host.loader >>= fun c => c.override o.settings) = r

/-- What the options make of the bytes of a vector set. -/
def Options.task (o : Options) (b : Bytes) : Except Fault Task := do
  let vectors ← VectorSet.ofDocument (.bytes b)
  let algorithm ← Algorithm.ofName (some ((o.algorithm <|> vectors.algorithm).getD []))
  return { vectors, algorithm }

/-- The host has read the vector set of the options, and this comes to a task or to a fault. -/
def Options.Reads (host : Host m) (o : Options) (w : W) (r : Except Fault Task) (w' : W) : Prop :=
  ∃ b, Run (host.read (Path.normal o.vectors)) w (.ok b) w' ∧ o.task b = r

/-- Why a run does not get to know what it is to run, and the actor that is known by then. -/
inductive Unprepared (host : Host m) (o : Options) (w : W) : Option Text → Fault → Prop
  | settings {f : Fault} {w' : W} : o.Configures host w (.error f) w' → Unprepared host o w none f
  | task {c : Config} {f : Fault} {w₁ w₂ : W} : o.Configures host w (.ok c) w₁ →
    o.Reads host w₁ (.error f) w₂ → Unprepared host o w (some c.actor) f

/-- The run has come to its settings, and with them to its task. -/
def Prepared (host : Host m) (o : Options) (w : W) (c : Config) (t : Task) (w' : W) : Prop :=
  ∃ w₁, o.Configures host w (.ok c) w₁ ∧ o.Reads host w₁ (.ok t) w'

/-- The actor of the settings is there and was started, and the task was run over the channel to it
and came to a result. When it did no file had been written yet. -/
def Task.ComesTo (host : Host m) (c : Config) (t : Task) (w : W)
    (r : Except Fault (List GroupResponse)) (w' : W) : Prop :=
  ∃ channel w₁ w₂, Run (host.finds c.actor) w true w₁ ∧ Run (host.start c) w₁ (.ok channel) w₂ ∧
    Run (t.answer c.timeoutSecs (Archive.channel channel)) (([] : Archive), w₂) r
      (([] : Archive), w')

/-- Why nobody answers. -/
inductive Unanswered (host : Host m) (c : Config) (t : Task) (w : W) : Fault → Prop
  | absent {w' : W} : Run (host.finds c.actor) w false w' →
    Unanswered host c t w (.config (.absentActor c.actor))
  | notStarted {reason : Text} {w₁ w₂ : W} : Run (host.finds c.actor) w true w₁ →
    Run (host.start c) w₁ (.error reason) w₂ →
    Unanswered host c t w (.subject (.actor (.notStarted c.actor reason)))
  | failed {f : Fault} {w' : W} : t.ComesTo host c w (.error f) w' → Unanswered host c t w f

/-- The response is written, if it is asked for. -/
inductive Task.Stores (host : Host m) (o : Options) (t : Task) (groups : List GroupResponse)
    (w : W) : W → Prop
  | none (h : o.out = none) : t.Stores host o groups w w
  | some {path : Text} {w' : W} (h : o.out = some path)
    (write : Run (host.write (Path.normal path) (Json.fileText (t.response groups))) w (.ok ()) w') :
    t.Stores host o groups w w'

/-- The run has come to its task and to the answers, and has written the response, if it is asked
for. -/
def Answered (host : Host m) (o : Options) (w : W) (c : Config) (t : Task)
    (groups : List GroupResponse) (w' : W) : Prop :=
  ∃ w₁ w₂, Prepared host o w c t w₁ ∧ t.ComesTo host c w₁ (.ok groups) w₂ ∧
    t.Stores host o groups w₂ w'

/-- The answers and the document that the host has read as expected results come to a result when
they are compared. -/
def Judged (host : Host m) (o : Options) (groups : List GroupResponse) (w : W)
    (r : Except Fault Comparison.Report) : Prop :=
  ∃ path b w', o.expected = some path ∧ Run (host.read (Path.normal path)) w (.ok b) w' ∧
    Comparison.compareResponses (.array (groupsJson groups)) (.bytes b) = r

/-- What the stages come to, with what is known by then and the files that were written. -/
inductive Course (host : Host m) (o : Options) (w : W) :
    Except Fault Verdict → Facts → Archive → Prop
  | unprepared {actor : Option Text} {f : Fault} : Unprepared host o w actor f →
    Course host o w (.error f) { vectorsFile := Path.normal o.vectors, actor } []
  | unanswered {c : Config} {t : Task} {w' : W} {f : Fault} : Prepared host o w c t w' →
    Unanswered host c t w' f → Course host o w (.error f) (t.facts o c) []
  | incomparable {c : Config} {t : Task} {groups : List GroupResponse} {w' : W} {f : Fault} :
    Answered host o w c t groups w' → Judged host o groups w' (.error f) →
    Course host o w (.error f) (t.facts o c) (t.responseFile o groups)
  | unchecked {c : Config} {t : Task} {groups : List GroupResponse} {w' : W} :
    Answered host o w c t groups w' → o.expected = none →
    Course host o w (.ok .unchecked) (t.facts o c) (t.responseFile o groups)
  | compared {c : Config} {t : Task} {groups : List GroupResponse} {w' : W}
    {r : Comparison.Report} {suite : Archive} : Answered host o w c t groups w' →
    Judged host o groups w' (.ok r) → t.suiteFile o r = .ok suite →
    Course host o w (.ok (.compared r)) (t.facts o c) (t.responseFile o groups ++ suite)

end

/-! ## Stages -/

theorem compared_error {cases : List Json} {f : Fault} (h : Junit.compared cases = .error f) :
    ∃ why, f = .defect why := by
  induction cases with
  | nil => cases h
  | cons c rest ih =>
    rcases cases_of_bind_eq_error h with hs | ⟨s, -, h⟩
    · unfold Junit.status at hs
      split at hs <;> cases hs
      exact ⟨_, rfl⟩
    rcases cases_of_bind_eq_error h with hrest | ⟨_, -, h⟩
    · exact ih hrest
    · cases h

theorem caseElements_error {suite : Text} {cases : List (Json × Bool)} {f : Fault}
    (h : Junit.caseElements suite cases = .error f) : ∃ why, f = .defect why := by
  induction cases with
  | nil => cases h
  | cons c rest ih =>
    rcases cases_of_bind_eq_error h with hc | ⟨e, -, h⟩
    · rcases cases_of_bind_eq_error hc with hname | ⟨_, -, hc⟩
      · unfold Junit.caseName at hname
        split at hname <;> cases hname <;> exact ⟨_, rfl⟩
      · cases hc
    rcases cases_of_bind_eq_error h with hrest | ⟨_, -, h⟩
    · exact ih hrest
    · cases h

/-- A suite that cannot be written as a document is not foreseen. -/
theorem report_error {suite : Text} {cases : List Json} {f : Fault}
    (h : Junit.report suite cases = .error f) : ∃ why, f = .defect why := by
  rcases cases_of_bind_eq_error h with hc | ⟨cs, -, h⟩
  · exact compared_error hc
  rcases cases_of_bind_eq_error h with he | ⟨es, -, h⟩
  · exact caseElements_error he
  split at h
  · cases h
    exact ⟨_, rfl⟩
  · cases h

section

variable {m : Type → Type} [Monad m] [LawfulMonad m] {W : Type} [HasRuns m W] {host : Host m}
  {o : Options} {facts : Facts} {files : Archive} {w : W} {v : Facts × Archive × W} {c : Config}
  {t : Task} {groups : List GroupResponse}

/-- Settings that a run has got to, or the fault that has kept it from them. -/
theorem ends_configure {host : Host m} {r : Except Fault Config} {v : Facts × W}
    (h : Ends (configure host o) (facts, w) r v) :
    o.Configures host w r v.2 ∧ v.1 = facts.settled r := by
  -- with a file or without one, what is left once it is read is the same
  have hrest (file : Option Config.File) {w₁ : W} (hfile : o.ReadsFile host w file w₁)
      (h : Ends (do
        let env ← onHost host.environment
        let c ← orStop (Config.load file env host.loader)
        let c ← orStop (c.override o.settings)
        modify fun facts => { facts with actor := some c.actor }
        pure c) (facts, w₁) r v) : o.Configures host w r v.2 ∧ v.1 = facts.settled r := by
    obtain ⟨env, w₂, henv, hload⟩ := ends_onHost_bind.1 h
    rcases ends_orStop_bind.1 hload with ⟨f, hf, rfl, rfl⟩ | ⟨b, hb, hover⟩
    · exact ⟨⟨file, env, w₁, hfile, henv, by rw [hf]; rfl⟩, rfl⟩
    rcases ends_orStop_bind.1 hover with ⟨f, hf, rfl, rfl⟩ | ⟨c, hc, hnote⟩
    · exact ⟨⟨file, env, w₁, hfile, henv, by rw [hb]; exact hf⟩, rfl⟩
    have hend := ends_modify_bind.1 hnote
    obtain ⟨rfl, rfl⟩ := ends_pure.1 hend
    exact ⟨⟨file, env, w₁, hfile, henv, by rw [hb]; exact hc⟩, rfl⟩
  unfold configure at h
  cases hc : o.config with
  | none =>
    simp only [hc, pure_bind] at h
    exact hrest none (.none hc) h
  | some path =>
    simp only [hc, pure_bind] at h
    obtain ⟨content, w₁, hread, hload⟩ := ends_onHost_bind.1 h
    exact hrest _ (.some hc hread) hload

omit [LawfulMonad m] in
theorem Options.Configures.below {r : Except Fault Config} {u u' : Archive × W}
    (h : o.Configures host.archived u r u') : o.Configures host u.2 r u'.2 ∧ u'.1 = u.1 := by
  obtain ⟨file, env, u₁, hfile, henv, hr⟩ := h
  obtain ⟨henv, hu'⟩ := run_liftState.1 henv
  cases hfile with
  | none hnone => exact ⟨⟨none, env, _, .none hnone, henv, hr⟩, hu'⟩
  | some hsome hread =>
    obtain ⟨hread, hu₁⟩ := run_liftState.1 hread
    exact ⟨⟨_, env, _, .some hsome hread, henv, hr⟩, hu'.trans hu₁⟩

theorem Options.task_of_error {b : Bytes} {f : Fault}
    (h : VectorSet.ofDocument (.bytes b) = .error f) : o.task b = .error f := by
  unfold Options.task
  rw [h]
  rfl

theorem Options.task_of_ok {b : Bytes} {vs : VectorSet}
    (h : VectorSet.ofDocument (.bytes b) = .ok vs) : o.task b =
      (fun a => { vectors := vs, algorithm := a }) <$>
        Algorithm.ofName (some ((o.algorithm <|> vs.algorithm).getD [])) := by
  unfold Options.task
  rw [h]
  rfl

/-- A task that a run has got to, or the fault that has kept it from one. -/
theorem ends_readTask {r : Except Fault Task} (hr : Foreseen r)
    (h : Ends (readTask host.archived o) (facts, files, w) r v) :
    v.1 = facts.tasked r ∧ v.2.1 = files ∧ o.Reads host w r v.2.2 := by
  unfold readTask at h
  obtain ⟨b, w', hread, h⟩ := read_of_ends hr h
  rcases ends_orStop_bind.1 h with ⟨f, hf, rfl, rfl⟩ | ⟨vs, hvs, h⟩
  · exact ⟨rfl, rfl, b, hread, Options.task_of_error hf⟩
  rcases ends_orStop_bind.1 h with ⟨f, hf, rfl, rfl⟩ | ⟨a, ha, h⟩
  · exact ⟨rfl, rfl, b, hread, by rw [Options.task_of_ok hvs, hf]; rfl⟩
  have hend := ends_modify_bind.1 h
  obtain ⟨rfl, rfl⟩ := ends_pure.1 hend
  exact ⟨rfl, rfl, b, hread, by rw [Options.task_of_ok hvs, ha]; rfl⟩

theorem ends_ask {r : Except Fault (List GroupResponse)}
    (h : Ends (ask host.archived c t) (facts, [], w) r v) : v.1 = facts ∧ v.2.1 = [] ∧
      (∀ f, r = .error f → Unanswered host c t w f) ∧
      ∀ groups, r = .ok groups → t.ComesTo host c w (.ok groups) v.2.2 := by
  unfold ask at h
  obtain ⟨there, ⟨files, w₁⟩, hfinds, hrest⟩ := ends_onHost_bind.1 h
  obtain ⟨hfinds, rfl⟩ := below_finds host c.actor hfinds
  cases there with
  | false =>
    rcases ends_bind.1 hrest with ⟨f, hf, rfl⟩ | ⟨_, _, hf, -⟩
    · obtain ⟨he, rfl⟩ := ends_throw.1 hf
      cases he
      refine ⟨rfl, rfl, ?_, nofun⟩
      rintro _ he
      cases he
      exact .absent hfinds
    · cases (ends_throw.1 hf).1
  | true =>
    obtain ⟨started, ⟨files, w₂⟩, hstart, hask⟩ := ends_onHost_bind.1 hrest
    obtain ⟨rfl, q, hq, rfl⟩ := run_archived_start hstart
    cases q with
    | error reason =>
      obtain ⟨rfl, rfl⟩ := ends_throw.1 hask
      refine ⟨rfl, rfl, ?_, nofun⟩
      rintro _ he
      cases he
      exact .notStarted hfinds hq
    | ok channel =>
      obtain ⟨q, ⟨files, w₃⟩, hanswer, hgive⟩ := ends_onHost_bind.1 hask
      obtain rfl : files = [] := t.answer_keeps (Archive.channel_stays channel) rfl hanswer
      obtain ⟨rfl, rfl⟩ := ends_liftExcept.1 hgive
      have hcomes : t.ComesTo host c w r w₃ := ⟨channel, w₁, w₂, hfinds, hq, hanswer⟩
      refine ⟨rfl, rfl, ?_, ?_⟩
      · rintro f rfl
        exact .failed hcomes
      · rintro groups rfl
        exact hcomes

/-- The response of the answers is written, unless the run ends unforeseen. -/
theorem ends_store {β : Type} {r : Except Fault β} {f : Stage (StateT Archive m) β}
    (hr : Foreseen r) (h : Ends (do
      if let some path := o.out then
        writeFile host.archived path (Json.fileText (t.response groups))
      f) (facts, [], w) r v) :
    ∃ w', t.Stores host o groups w w' ∧ Ends f (facts, t.responseFile o groups, w') r v := by
  cases ho : o.out with
  | none =>
    simp only [ho] at h
    refine ⟨w, .none ho, ?_⟩
    rw [Task.responseFile, ho]
    exact h
  | some path =>
    simp only [ho] at h
    obtain ⟨w', hwrite, h⟩ := written_of_ends hr h
    refine ⟨w', .some ho hwrite, ?_⟩
    rw [Task.responseFile, ho]
    exact h

theorem ends_judge {r : Except Fault Verdict} (hr : Foreseen r)
    (h : Ends (judge host.archived o t groups) (facts, files, w) r v) :
    ∃ w', (o.expected = none ∧ r = .ok .unchecked ∧ v = (facts, files, w')) ∨
      (∃ f, Judged host o groups w (.error f) ∧ r = .error f ∧ v = (facts, files, w')) ∨
      ∃ c suite, Judged host o groups w (.ok c) ∧ t.suiteFile o c = .ok suite ∧
        r = .ok (.compared c) ∧ v = (facts, files ++ suite, w') := by
  unfold judge at h
  cases he : o.expected with
  | none =>
    simp only [he] at h
    obtain ⟨rfl, rfl⟩ := ends_pure.1 h
    exact ⟨w, Or.inl ⟨rfl, rfl, rfl⟩⟩
  | some path =>
    simp only [he] at h
    obtain ⟨b, w', hread, h⟩ := read_of_ends hr h
    have hjudged {q : Except Fault Comparison.Report}
        (hq : Comparison.compareResponses (.array (groupsJson groups)) (.bytes b) = q) :
        Judged host o groups w q := ⟨path, b, w', he, hread, hq⟩
    rcases ends_orStop_bind.1 h with ⟨f, hf, rfl, rfl⟩ | ⟨c, hc, h⟩
    · exact ⟨w', Or.inr (Or.inl ⟨f, hjudged hf, rfl, rfl⟩)⟩
    cases hj : o.junit with
    | none =>
      simp only [hj] at h
      obtain ⟨rfl, rfl⟩ := ends_pure.1 h
      refine ⟨w', Or.inr (Or.inr ⟨c, [], hjudged hc, ?_, rfl, by rw [List.append_nil]⟩)⟩
      rw [Task.suiteFile, hj]
    | some junit =>
      simp only [hj] at h
      rcases ends_orStop_bind.1 h with ⟨f, hf, rfl, rfl⟩ | ⟨text, ht, h⟩
      · obtain ⟨why, rfl⟩ := report_error hf
        exact absurd rfl (hr why)
      obtain ⟨w'', -, h⟩ := written_of_ends hr h
      obtain ⟨rfl, rfl⟩ := ends_pure.1 h
      refine ⟨w'', Or.inr (Or.inr ⟨c, _, hjudged hc, ?_, rfl, rfl⟩)⟩
      rw [Task.suiteFile, hj, ht]
      rfl

/-- The stages take one of the courses, unless the run ends unforeseen. -/
theorem course_of_ends {r : Except Fault Verdict} (hr : Foreseen r)
    (h : Ends (stages host.archived o) ({ vectorsFile := Path.normal o.vectors }, [], w) r v) :
    Course host o w r v.1 v.2.1 := by
  unfold stages at h
  rcases ends_bind.1 h with ⟨f, hf, rfl⟩ | ⟨c, ⟨facts₁, files₁, w₁⟩, hc, hrest⟩
  · obtain ⟨facts₁, files₁, w₁⟩ := v
    obtain ⟨hsettings, rfl⟩ := ends_configure hf
    obtain ⟨hsettings, rfl⟩ := hsettings.below
    exact .unprepared (.settings hsettings)
  obtain ⟨hsettings, rfl⟩ := ends_configure hc
  obtain ⟨hsettings, rfl⟩ := hsettings.below
  rcases ends_bind.1 hrest with ⟨f, hf, rfl⟩ | ⟨t, ⟨facts₂, files₂, w₂⟩, ht, hrest⟩
  · obtain ⟨facts₂, files₂, w₂⟩ := v
    obtain ⟨rfl, rfl, hreads⟩ := ends_readTask (foreseen_error hr) hf
    exact .unprepared (.task hsettings hreads)
  obtain ⟨rfl, rfl, hreads⟩ := ends_readTask foreseen_ok ht
  have hprepared : Prepared host o w c t w₂ := ⟨w₁, hsettings, hreads⟩
  rcases ends_bind.1 hrest with ⟨f, hf, rfl⟩ | ⟨groups, ⟨facts₃, files₃, w₃⟩, hask, hrest⟩
  · obtain ⟨facts₃, files₃, w₃⟩ := v
    obtain ⟨rfl, rfl, hsilent, -⟩ := ends_ask hf
    exact .unanswered hprepared (hsilent f rfl)
  obtain ⟨rfl, rfl, -, hcomes⟩ := ends_ask hask
  obtain ⟨w₄, hstores, hjudge⟩ := ends_store hr hrest
  have hanswered : Answered host o w c t groups w₄ :=
    ⟨w₂, w₃, hprepared, hcomes groups rfl, hstores⟩
  obtain ⟨w₅, ⟨hnone, rfl, rfl⟩ | ⟨f, hj, rfl, rfl⟩ | ⟨c', suite, hj, hs, rfl, rfl⟩⟩ :=
    ends_judge hr hjudge
  · exact .unchecked hanswered hnone
  · exact .incomparable hanswered hj
  · exact .compared hanswered hj hs

/-! ## The whole run -/

/-- The report of what the stages have come to. -/
def Report.ofStages (facts : Facts) (r : Except Fault Verdict) : Report where
  facts := facts
  verdict := match r with
    | .ok verdict => verdict
    | .error f => .stopped f

omit [LawfulMonad m] in
/-- A file is written and an exit code is given, unless it cannot be written. -/
theorem run_write_last {path content : Text} {f : Except FileFault Unit → StateT Archive m Ending}
    {n code : Nat} {files' : Archive} {w' : W} (hok : f (.ok ()) = pure (.ok n))
    (herror : ∀ why, f (.error why) = pure (.error (.file why)))
    (h : Run (host.archived.write path content >>= f) (files, w) (.ok code) (files', w')) :
    files' = files ++ [(path, content)] ∧ code = n := by
  obtain ⟨q, ⟨files₂, w₂⟩, hq, hret⟩ := run_bind.1 h
  obtain ⟨-, rfl⟩ := run_archived_write hq
  cases q with
  | ok u =>
    rw [show f (.ok u) = pure (.ok n) from hok] at hret
    obtain ⟨hcode, hv⟩ := run_pure.1 hret
    cases hcode
    cases hv
    exact ⟨rfl, rfl⟩
  | error why =>
    rw [herror] at hret
    cases (run_pure.1 hret).1

omit [LawfulMonad m] in
/-- The report is the last file that is written, and the exit code is that of the report. -/
theorem run_conclude {path : Text} {r : Report} {code : Nat} {files' : Archive} {w' : W}
    (h : Run (conclude host.archived path r) (files, w) (.ok code) (files', w')) :
    files' = files ++ [(Path.normal path, Json.fileText r.toJson)] ∧ code = r.exitCode := by
  unfold conclude at h
  obtain ⟨_, ⟨files₁, w₁⟩, hcomplain, hrest⟩ := run_bind.1 h
  obtain ⟨-, rfl⟩ := below_forM (fun _ => below_lift) hcomplain
  cases hok : r.ok with
  | true =>
    simp only [hok, if_true] at hrest
    obtain ⟨_, ⟨files₂, w₂⟩, hinform, hlast⟩ := run_bind.1 hrest
    obtain ⟨-, rfl⟩ := run_liftState.1 hinform
    exact run_write_last rfl (fun _ => rfl) hlast
  | false =>
    simp only [hok, Bool.false_eq_true, if_false] at hrest
    exact run_write_last rfl (fun _ => rfl) hrest

omit [LawfulMonad m] in
/-- Looking for the files that a run needs writes nothing. -/
theorem below_absence (host : Host m) (o : Options) :
    Below (absence host.archived o) (absence host o) := by
  refine below_bind below_lift fun there => ?_
  cases there with
  | false => exact below_pure
  | true =>
    cases o.expected with
    | none => exact below_pure
    | some path =>
      refine below_bind below_lift fun there => ?_
      cases there <;> exact below_pure

omit [LawfulMonad m] in
/-- A run that gives an exit code has written nothing because a file that it needs is not there,
or it has written its report after its stages. -/
theorem run_stages {code : Nat} {files : Archive} {w' : W}
    (h : Run (run host.archived o) ([], w) (.ok code) (files, w')) :
    (files = [] ∧ code = absentCode) ∨ ∃ r facts earlier w₁ w₂, Foreseen r ∧
      Run (absence host.archived o) ([], w) none ([], w₁) ∧
      Ends (stages host.archived o) ({ vectorsFile := Path.normal o.vectors }, [], w₁) r
        (facts, earlier, w₂) ∧
      files = earlier ++ [(Path.normal o.report, Json.fileText (Report.ofStages facts r).toJson)] ∧
      code = (Report.ofStages facts r).exitCode := by
  unfold run at h
  obtain ⟨missing, ⟨files₁, w₁⟩, habsence, hrest⟩ := run_bind.1 h
  obtain ⟨-, rfl⟩ := below_absence host o habsence
  cases missing with
  | some words =>
    obtain ⟨_, ⟨files₂, w₂⟩, hcomplain, hret⟩ := run_bind.1 hrest
    obtain ⟨-, rfl⟩ := run_liftState.1 hcomplain
    obtain ⟨hcode, hv⟩ := run_pure.1 hret
    cases hcode
    cases hv
    exact Or.inl ⟨rfl, rfl⟩
  | none =>
    right
    obtain ⟨⟨r, facts⟩, ⟨files₂, w₂⟩, hstages, hconclude⟩ := run_bind.1 hrest
    have hr : Foreseen r := by
      rintro why rfl
      cases (run_pure.1 hconclude).1
    have hclosed : Run (conclude host.archived o.report (.ofStages facts r)) (files₂, w₂)
        (.ok code) (files, w') := by
      cases r with
      | ok verdict => exact hconclude
      | error f =>
        cases f with
        | defect why => exact absurd rfl (hr why)
        | _ => exact hconclude
    obtain ⟨hfiles, hcode⟩ := run_conclude hclosed
    exact ⟨r, facts, files₂, w₁, w₂, hr, habsence, hstages, hfiles, hcode⟩

/-- The stages of a run that has written its report have taken one of the courses. -/
theorem run_cases {code : Nat} {files : Archive} {w' : W}
    (h : Run (run host.archived o) ([], w) (.ok code) (files, w')) :
    (files = [] ∧ code = absentCode) ∨ ∃ w₁ r facts earlier,
      Run (absence host o) w none w₁ ∧ Course host o w₁ r facts earlier ∧
      files = earlier ++ [(Path.normal o.report, Json.fileText (Report.ofStages facts r).toJson)] ∧
      code = (Report.ofStages facts r).exitCode := by
  rcases run_stages h with hnothing | ⟨r, facts, earlier, w₁, w₂, hr, habsence, hstages, hrest⟩
  · exact Or.inl hnothing
  · obtain ⟨hnone, -⟩ := below_absence host o habsence
    exact Or.inr ⟨w₁, r, facts, earlier, hnone, course_of_ends hr hstages, hrest⟩

end

end XofConformance.CommandLine
