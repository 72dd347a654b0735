import XofConformance.Proofs.Run.Chain

/-!
# Chains that break

A round whose answer cannot be used ends its chain: no call comes after it, and the case, the group
and the run all stop with the one fault that the answer is taken for. It is a failure of the subject
in the name of the algorithm, with what is wrong in its words, unless the subject has raised a fault
of the library that speaks neither of a subject nor of an encoding. Such a fault is passed on as it
is.

    Ends (runCase env.overheard.subject algorithm bounds c) (before, w) r (after, w') →
      after = before ++ l with Heeds algorithm l r, and so the run of a source     (breaks_off)
-/

namespace XofConformance

/-- The answers of a log, each with its call. -/
def Log.answers (l : Log) : List (Call × Outcome) :=
  l.filterMap fun
    | .start _ => none
    | .finish c o => some (c, o)

theorem Log.answers_append {l l' : Log} : (l ++ l').answers = l.answers ++ l'.answers :=
  List.filterMap_append

/-- The surroundings of an exchange with a log of the calls that are waited for, and of no others. -/
def Setting.overheard {κ : Type} {m : Type → Type} [Monad m] (env : Setting κ m) :
    Setting κ (StateT Log m) where
  subject := env.logged.subject
  schedule := env.schedule
  put c := StateT.lift (env.put c)
  answer ticket c := StateT.lift (env.answer ticket c)

namespace MonteCarlo

variable {algorithm : Text} {bounds : Bounds} {α β : Type}

/-! ## Answers that cannot be used -/

/-- The answer is three byte strings, the second of them four bytes long. -/
def Usable (o : Outcome) : Prop :=
  ∃ msg outLen customization, o = .ok [msg, outLen, customization] ∧ outLen.length = 4

/-- A fault of the library that speaks neither of a subject nor of an encoding. -/
def PassesOn : Fault → Prop
  | .general _ | .input _ | .vector _ | .config _ => True
  | .encoding _ | .subject _ | .defect _ => False

/-- The failure of a round, in the words of its cause. -/
def failure (algorithm cause : Text) : Fault := .subject (.monteCarlo algorithm cause)

/-- An answer that cannot be used, and the fault that it is taken for. -/
inductive Breaks (algorithm : Text) : Outcome → Fault → Prop
  | subject (why : SubjectFault) :
    Breaks algorithm (.error (.subject why)) (failure algorithm why.message)
  | encoding (why : EncodingFault) :
    Breaks algorithm (.error (.encoding why)) (failure algorithm why.message)
  | crash (why : Defect) : Breaks algorithm (.error (.defect why)) (failure algorithm why.message)
  | count {results : List Bytes} (h : results.length ≠ 3) :
    Breaks algorithm (.ok results) (failure algorithm
      (SubjectFault.resultCount (algorithm ++ "/MCT") 3 results.length).message)
  | word {msg outLen customization : Bytes} (h : outLen.length ≠ 4) :
    Breaks algorithm (.ok [msg, outLen, customization])
      (failure algorithm (EncodingFault.wordLength outLen.length).message)
  | passed {f : Fault} (h : PassesOn f) : Breaks algorithm (.error f) f

/-- The fault is the failure of a round, in words that begin with the algorithm, or it is the
subject's own and is passed on. -/
theorem Breaks.told {o : Outcome} {f : Fault} (h : Breaks algorithm o f) :
    (∃ cause, f = failure algorithm cause ∧
      f.message = algorithm ++ Text.ofString " mct operation failed: " ++ cause) ∨
    PassesOn f ∧ o = .error f := by
  have hmessage : ∀ cause, (failure algorithm cause).message =
      algorithm ++ Text.ofString " mct operation failed: " ++ cause := by
    intro cause
    show [algorithm, Text.ofString " mct operation failed: ", cause].flatten = _
    simp
  cases h with
  | passed hf => exact .inr ⟨hf, rfl⟩
  | _ => exact .inl ⟨_, rfl, hmessage _⟩

/-- An answer is taken for one fault only. -/
theorem Breaks.unique {o : Outcome} {f f' : Fault} (h : Breaks algorithm o f)
    (h' : Breaks algorithm o f') : f' = f := by
  cases h with
  | count hcount =>
    cases h' with
    | count _ => rfl
    | word _ => exact absurd rfl hcount
  | word _ =>
    cases h' with
    | count hcount => exact absurd rfl hcount
    | word _ => rfl
  | passed hpasses =>
    cases h' with
    | passed _ => rfl
    | _ => exact hpasses.elim
  | _ =>
    cases h' with
    | passed hpasses => exact hpasses.elim
    | _ => rfl

/-- An answer that cannot be used makes no state, and is taken for the fault of the round. -/
theorem breaks_of_not_usable (algorithm : Text) (args : List Bytes) {o : Outcome}
    (h : ¬ Usable o) : ∃ f, stateOf (call algorithm args) o = .error f ∧
      Breaks algorithm o (roundFault algorithm f) := by
  cases o with
  | error f =>
    refine ⟨f.asFailure, rfl, ?_⟩
    cases f with
    | subject why => exact .subject why
    | encoding why => exact .encoding why
    | defect why => exact .crash why
    | _ => exact .passed trivial
  | ok results =>
    by_cases hcount : results.length = 3
    · obtain ⟨msg, outLen, customization, rfl⟩ := List.length_eq_three.1 hcount
      have hlength : outLen.length ≠ 4 := fun hlength => h ⟨_, _, _, rfl, hlength⟩
      refine ⟨.encoding (.wordLength outLen.length), ?_, .word hlength⟩
      have hsettle : (call algorithm args).settle (.ok [msg, outLen, customization]) =
          .ok [msg, outLen, customization] := Call.settle_eq_ok_iff.2 ⟨rfl, rfl⟩
      unfold stateOf
      rw [hsettle]
      show nextState [msg, outLen, customization] = _
      unfold nextState Bytes.decodeWord
      simp only [hlength, if_false]
    · refine ⟨.subject (.resultCount (operation algorithm) 3 results.length), ?_, .count hcount⟩
      have hexpected : ¬ (results.length : Int) = (call algorithm args).expected := by
        show ¬ (results.length : Int) = 3
        omega
      unfold stateOf Call.settle
      simp only [if_neg hexpected]
      rfl

/-! ## What heeds its answers -/

/-- The calls of the log are answered one by one, and an answer that cannot be used is the last: it
comes to the fault that it is taken for, after as many calls as there are answers up to it. -/
structure Heeds (algorithm : Text) (l : Log) (r : Except Fault α) : Prop where
  oneByOne : l.started = l.answers.map Prod.fst
  last : ∀ (k : Nat) c o, l.answers[k]? = some (c, o) → ¬ Usable o →
    l.started.length = k + 1 ∧ ∃ f, Breaks algorithm o f ∧ r = .error f

theorem Heeds.nil {r : Except Fault α} : Heeds algorithm [] r where
  oneByOne := rfl
  last k c o hk := by
    rw [show Log.answers [] = [] from rfl, List.getElem?_nil] at hk
    cases hk

/-- A log of which no answer breaks anything, and what comes after it. -/
theorem Heeds.append {l l' : Log} {a : α} {r : Except Fault β} (h : Heeds algorithm l (.ok a))
    (h' : Heeds algorithm l' r) : Heeds algorithm (l ++ l') r where
  oneByOne := by
    rw [Log.started_append, Log.answers_append, List.map_append, h.oneByOne, h'.oneByOne]
  last := by
    have hlength : l.started.length = l.answers.length := by rw [h.oneByOne, List.length_map]
    intro k c o hk hno
    rw [Log.answers_append] at hk
    rw [Log.started_append, List.length_append, hlength]
    -- an answer of the first log that could not be used would have made a fault of its result
    by_cases hlt : k < l.answers.length
    · rw [List.getElem?_append_left hlt] at hk
      obtain ⟨-, f, -, he⟩ := h.last k c o hk hno
      cases he
    · rw [List.getElem?_append_right (Nat.le_of_not_lt hlt)] at hk
      obtain ⟨hcount, hfault⟩ := h'.last _ c o hk hno
      exact ⟨by omega, hfault⟩

/-- A fault among the answers is one that cannot be used. -/
theorem Heeds.stops {l : Log} {r : Except Fault α} {k : Nat} {f : Fault} (h : Heeds algorithm l r)
    (hk : l.answers[k]?.map Prod.snd = some (.error f)) :
    l.started.length = k + 1 ∧ ∃ f', Breaks algorithm (.error f) f' ∧ r = .error f' := by
  obtain ⟨⟨c, o⟩, hanswer, rfl⟩ := Option.map_eq_some_iff.1 hk
  exact h.last k c (.error f) hanswer nofun

section

variable {n : Type → Type} [Monad n] {V : Type} [HasRuns n V] {logOf : V → Log}

/-- Whatever the run, what is put on the log is heeded by the result. -/
def Heeding (algorithm : Text) (logOf : V → Log) (x : ExceptT Fault n α) : Prop :=
  ∀ v r v', Ends x v r v' → ∃ l, logOf v' = logOf v ++ l ∧ Heeds algorithm l r

theorem heeding_of_quiet {x : ExceptT Fault n α} (h : ∀ v r v', Ends x v r v' → logOf v' = logOf v) :
    Heeding algorithm logOf x :=
  fun v r v' hx => ⟨[], by rw [h v r v' hx, List.append_nil], .nil⟩

theorem heeding_pure {a : α} : Heeding algorithm logOf (pure a : ExceptT Fault n α) :=
  heeding_of_quiet fun _ _ _ h => by rw [(ends_pure.1 h).2]

theorem heeding_liftExcept {x : Except Fault α} :
    Heeding algorithm logOf (liftM x : ExceptT Fault n α) :=
  heeding_of_quiet fun _ _ _ h => by rw [(ends_liftExcept.1 h).2]

theorem Heeding.bind {x : ExceptT Fault n α} {f : α → ExceptT Fault n β}
    (hx : Heeding algorithm logOf x) (hf : ∀ a, Heeding algorithm logOf (f a)) :
    Heeding algorithm logOf (x >>= f) := by
  intro v r v' h
  rcases ends_bind.1 h with ⟨e, he, rfl⟩ | ⟨a, v₁, ha, hrest⟩
  · obtain ⟨l, hl, hheeds⟩ := hx v _ v' he
    refine ⟨l, hl, hheeds.oneByOne, fun k c o hk hno => ?_⟩
    obtain ⟨hcount, f', hbreaks, herror⟩ := hheeds.last k c o hk hno
    cases herror
    exact ⟨hcount, e, hbreaks, rfl⟩
  · obtain ⟨l, hl, hheeds⟩ := hx v _ v₁ ha
    obtain ⟨l', hl', hheeds'⟩ := hf a v₁ r v' hrest
    exact ⟨l ++ l', by rw [hl', hl, List.append_assoc], hheeds.append hheeds'⟩

end

/-! ## Rounds, chains and cases -/

section

variable {m : Type → Type} [Monad m] {W : Type} [HasRuns m W] {subject : Subject m} {w w' : W}
  {s : State} {k count : Nat}

/-- Of a number of rounds each leads to a state from which the next one is tried. -/
inductive Goes (subject : Subject m) (algorithm : Text) (bounds : Bounds) :
    Nat → State → W → State → W → Prop
  | done {s : State} {w : W} : Goes subject algorithm bounds 0 s w s w
  | next {k : Nat} {s next s' : State} {args : List Bytes} {o : Outcome} {w w₁ w' : W} :
    arguments bounds s = .ok args → Run (subject (call algorithm args)) w o w₁ →
    stateOf (call algorithm args) o = .ok next → Goes subject algorithm bounds k next w₁ s' w' →
    Goes subject algorithm bounds (k + 1) s w s' w'

variable [LawfulMonad m]

/-- A chain whose rounds go well up to one whose answer cannot be used does stop with the fault that
this answer is taken for. -/
theorem ends_chain_of_goes {s' : State} {w₁ : W} {args : List Bytes} {o : Outcome}
    (h : Goes subject algorithm bounds k s w s' w₁) (hk : k < count)
    (hargs : arguments bounds s' = .ok args) (ho : Run (subject (call algorithm args)) w₁ o w')
    (hno : ¬ Usable o) :
    ∃ f, Breaks algorithm o f ∧
      Ends (chain subject algorithm bounds count s) w (.error f) w' := by
  induction h generalizing count with
  | done =>
    obtain ⟨count, rfl⟩ := Nat.exists_eq_succ_of_ne_zero (Nat.ne_zero_of_lt hk)
    obtain ⟨f, hf, hbreaks⟩ := breaks_of_not_usable algorithm args hno
    refine ⟨_, hbreaks, ends_bind.2 (.inl ⟨_, ends_round_iff.2 ⟨.error f, ?_, rfl⟩, rfl⟩)⟩
    exact ends_attempt_iff.2 (.inr ⟨args, o, hargs, ho, hf.symm⟩)
  | next hargs₀ ho₀ hnext _ ih =>
    obtain ⟨count, rfl⟩ := Nat.exists_eq_succ_of_ne_zero (Nat.ne_zero_of_lt hk)
    obtain ⟨f, hbreaks, hchain⟩ := ih (Nat.lt_of_succ_lt_succ hk) hargs ho
    have hattempt := ends_attempt_iff.2 (.inr ⟨_, _, hargs₀, ho₀, hnext.symm⟩)
    refine ⟨f, hbreaks, ends_bind.2 (.inr ⟨_, _, ends_round_iff.2 ⟨_, hattempt, rfl⟩, ?_⟩)⟩
    exact ends_bind.2 (.inl ⟨f, hchain, rfl⟩)

theorem ends_runCase_of_goes {c : PreparedCase} {s' : State} {w₁ : W} {args : List Bytes}
    {o : Outcome} (hk : k < roundCount) (h : Goes subject algorithm bounds k (start bounds c) w s' w₁)
    (hargs : arguments bounds s' = .ok args) (ho : Run (subject (call algorithm args)) w₁ o w')
    (hno : ¬ Usable o) :
    ∃ f, Breaks algorithm o f ∧ Ends (runCase subject algorithm bounds c) w (.error f) w' := by
  obtain ⟨f, hbreaks, hchain⟩ := ends_chain_of_goes h hk hargs ho hno
  exact ⟨f, hbreaks, ends_bind.2 (.inl ⟨f, hchain, rfl⟩)⟩

end

section

variable {κ : Type} {m : Type → Type} [Monad m] [LawfulMonad m] {W : Type} [HasRuns m W]
  {env : Setting κ m} {s : State} {count : Nat}

theorem heeding_round :
    Heeding algorithm Prod.fst (round env.overheard.subject algorithm bounds s) := by
  rintro ⟨before, w⟩ r ⟨after, w'⟩ h
  obtain ⟨q, hq, rfl⟩ := ends_round_iff.1 h
  rcases ends_attempt_iff.1 hq with ⟨f, -, rfl, he⟩ | ⟨args, o, -, ho, rfl⟩
  · cases he
    exact ⟨[], (List.append_nil _).symm, .nil⟩
  · obtain ⟨-, rfl⟩ := run_logged_subject.1 ho
    refine ⟨_, rfl, rfl, fun k c o' hk hno => ?_⟩
    obtain ⟨rfl, he⟩ : k = 0 ∧ (call algorithm args, o) = (c, o') := by
      cases k with
      | zero => exact ⟨rfl, Option.some.inj hk⟩
      | succ k => cases hk
    cases he
    obtain ⟨f, hf, hbreaks⟩ := breaks_of_not_usable algorithm args hno
    exact ⟨rfl, _, hbreaks, by rw [hf]; rfl⟩

theorem heeding_chain :
    Heeding algorithm Prod.fst (chain env.overheard.subject algorithm bounds count s) := by
  induction count generalizing s with
  | zero => exact heeding_pure
  | succ count ih => exact heeding_round.bind fun _ => ih.bind fun _ => heeding_pure

theorem heeding_runCase {c : PreparedCase} :
    Heeding algorithm Prod.fst (runCase env.overheard.subject algorithm bounds c) :=
  heeding_chain.bind fun _ => heeding_pure

end

/-! ## Exchanges -/

section

variable {κ : Type} {m : Type → Type} [Monad m] {W : Type} [HasRuns m W] {env : Setting κ m}
  {p p' : Pool κ} {l l' : Log} {w w' : W}

/-- The log beside a pool. -/
def heard (v : Pool κ × (Log × W)) : Log := v.2.1

/-- Workers put nothing on the log. -/
theorem turn_quiet {position : Nat} (h : Run (env.overheard.turn position p) (l, w) p' (l', w')) :
    l' = l := by
  rcases turn_cases h with ⟨-, he, -⟩ | ⟨job, progress, client, -, -, ha, -⟩
  · exact congrArg Prod.fst he
  rcases advance_cases ha with ⟨-, -, t, hput, -⟩ | ⟨t, o, -, -, hanswer, -⟩ | ⟨_, -, he, -⟩ |
    ⟨_, -, -, -, he⟩
  · exact (run_liftState.1 hput).2
  · exact (run_liftState.1 hanswer).2
  · exact congrArg Prod.fst he
  · exact congrArg Prod.fst he

theorem settle_quiet (h : Run (env.overheard.settle p) (l, w) p' (l', w')) : l' = l := by
  obtain ⟨turns, q, hwork, -, -⟩ := run_settle h
  exact work_keeps (I := fun _ v => v.1 = l) (fun hi ht => (turn_quiet ht).trans hi) rfl hwork

variable [LawfulMonad m]

theorem heeding_submit {c : Call} {deliver : List Bytes → κ → Except Fault κ} :
    Heeding algorithm heard (env.overheard.submit c deliver) := by
  refine heeding_of_quiet fun ⟨p, v⟩ r ⟨p', v'⟩ h => ?_
  obtain ⟨-, -, rfl⟩ := ends_submit.1 h
  rfl

theorem drain_quiet {r : Except Fault Unit}
    (h : Ends env.overheard.drain (p, (l, w)) r (p', (l', w'))) : l' = l := by
  obtain ⟨q, hs, -, -⟩ := ends_drain.1 h
  exact settle_quiet hs

/-- Waiting for the calls handed over and then acting heeds what the action heeds. -/
theorem heeding_checkpoint {action : Exchange κ (StateT Log m) α}
    (h : Heeding algorithm heard action) :
    Heeding algorithm heard (env.overheard.checkpoint action) := by
  rintro ⟨p, before, w⟩ r ⟨p', after, w'⟩ hends
  obtain ⟨q, ⟨middle, w₁⟩, hs, hrest⟩ := ends_checkpoint.1 hends
  obtain rfl := settle_quiet hs
  rcases hrest with ⟨f, -, rfl, -, he⟩ | ⟨-, haction⟩
  · cases he
    exact ⟨[], (List.append_nil _).symm, .nil⟩
  · have hheeds := h _ _ _ haction
    exact hheeds

omit [LawfulMonad m] in
/-- What is done beside the pool heeds what it heeds alone. -/
theorem heeding_beside {x : ExceptT Fault (StateT Log m) α} (h : Heeding algorithm Prod.fst x) :
    Heeding algorithm heard
      (ExceptT.mk (liftM x.run) : Exchange κ (StateT Log m) α) := by
  rintro ⟨p, v⟩ r ⟨p', v'⟩ hends
  exact h _ _ _ (ends_fallible.1 hends).1

end

section

variable {ε : Type} {m : Type → Type} [Monad m] [LawfulMonad m] {W : Type} [HasRuns m W]
  {env : Setting (Desk ε) m} {group index : Nat}

theorem heeding_openGroup {tgId : Number} {count : Nat} :
    Heeding algorithm heard
      (Desk.openGroup tgId count : Exchange (Desk ε) (StateT Log m) Nat) := by
  refine heeding_of_quiet fun ⟨p, v⟩ r ⟨p', v'⟩ h => ?_
  obtain ⟨-, -, rfl⟩ := Desk.ends_openGroup.1 h
  rfl

theorem heeding_fillNow {r : TestResponse} :
    Heeding algorithm heard
      (Desk.fillNow group index r : Exchange (Desk ε) (StateT Log m) Unit) := by
  refine heeding_of_quiet fun ⟨p, v⟩ q ⟨p', v'⟩ h => ?_
  unfold Desk.fillNow at h
  rw [ends_get_bind] at h
  split at h
  · obtain ⟨-, -, rfl⟩ := ends_set.1 h
    rfl
  · rw [(ends_throw.1 h).2]

theorem heeding_closeGroup : Heeding algorithm heard (Desk.closeGroup env.overheard group) := by
  refine heeding_checkpoint (heeding_of_quiet fun ⟨p, v⟩ r ⟨p', v'⟩ h => ?_)
  obtain ⟨-, rfl⟩ := Desk.collect_leaves h
  rfl

theorem heeding_fillFrom {cases : List PreparedCase} :
    Heeding algorithm heard (fillFrom env.overheard algorithm bounds group index cases) := by
  induction cases generalizing index with
  | nil => exact heeding_pure
  | cons c rest ih =>
    exact (heeding_beside heeding_runCase).bind fun _ => heeding_fillNow.bind fun _ => ih

theorem heeding_submitFrom {cases : List PreparedCase} :
    Heeding algorithm heard
      (Functional.submitFrom env.overheard algorithm group index cases) := by
  induction cases generalizing index with
  | nil => exact heeding_pure
  | cons c rest ih => exact heeding_liftExcept.bind fun _ => heeding_submit.bind fun _ => ih

theorem heeding_group {g : PreparedGroup} :
    Heeding algorithm heard (g.run env.overheard algorithm) := by
  unfold PreparedGroup.run
  refine heeding_openGroup.bind fun group => ?_
  cases g.testType with
  | functional => exact heeding_submitFrom.bind fun _ => heeding_closeGroup
  | monteCarlo => exact heeding_fillFrom.bind fun _ => heeding_closeGroup

theorem heeding_runAll {groups : List PreparedGroup} :
    Heeding algorithm heard (PreparedGroup.runAll env.overheard algorithm groups) := by
  induction groups with
  | nil => exact heeding_pure
  | cons g rest ih => exact heeding_group.bind fun _ => ih.bind fun _ => heeding_pure

/-- Draining in the end makes no calls that are waited for, and passes the fault on. -/
theorem heeding_runDrained {groups : List PreparedGroup} :
    Heeding algorithm heard (PreparedGroup.runDrained env.overheard algorithm groups) := by
  rintro ⟨p, before, w⟩ q ⟨p', after, w'⟩ h
  obtain ⟨outcome, p₁, ⟨middle, w₁⟩, r, hall, hdrain, rfl⟩ := PreparedGroup.ends_runDrained_cases h
  obtain rfl := drain_quiet hdrain
  obtain ⟨l, hl, hheeds⟩ := heeding_runAll _ _ _ hall
  refine ⟨l, hl, ?_⟩
  cases outcome with
  | error f => exact ⟨hheeds.oneByOne, hheeds.last⟩
  | ok responses =>
    rw [← List.append_nil l]
    exact hheeds.append .nil

theorem heeding_source {s : Source} : Heeding algorithm heard (s.run env.overheard algorithm) := by
  rintro ⟨p, v⟩ q ⟨p', v'⟩ h
  rcases Source.ends_run.1 h with ⟨f, -, -, -, rfl⟩ | ⟨groups, -, hrun⟩
  · exact ⟨[], (List.append_nil _).symm, .nil⟩
  · exact heeding_runDrained _ _ _ hrun

end

/-! ## Top theorem -/

/-- **Breaking off.** Whatever the subject does: of the calls of a case the first one whose answer
cannot be used is the last, and the case stops with the fault that this answer is taken for. A run
of a whole source stops with the same fault, and makes no call that it would wait for after it. A
case whose rounds go well up to such an answer does stop so. The fault is the failure of a round in
the name of the algorithm, unless the subject has raised a fault that is passed on. -/
theorem breaks_off {ε : Type} {m : Type → Type} [Monad m] [LawfulMonad m] {W : Type} [HasRuns m W]
    (env : Setting (Desk ε) m) (algorithm : Text) :
    (∀ {bounds : Bounds} {c : PreparedCase} {r : Except Fault TestResponse} {before after : Log}
        {w w' : W},
      Ends (runCase env.overheard.subject algorithm bounds c) (before, w) r (after, w') →
      ∃ l, after = before ++ l ∧ Heeds algorithm l r) ∧
    (∀ {s : Source} {q : Except Fault (List GroupResponse)} {p p' : Pool (Desk ε)}
        {before after : Log} {w w' : W},
      Ends (s.run env.overheard algorithm) (p, (before, w)) q (p', (after, w')) →
      ∃ l, after = before ++ l ∧ Heeds algorithm l q) ∧
    (∀ {bounds : Bounds} {c : PreparedCase} {k : Nat} {s : State} {args : List Bytes} {o : Outcome}
        {w w₁ w' : W},
      k < 100 → Goes env.subject algorithm bounds k (start bounds c) w s w₁ →
      arguments bounds s = .ok args → Run (env.subject (call algorithm args)) w₁ o w' →
      ¬ Usable o → ∃ f, Breaks algorithm o f ∧
        Ends (runCase env.subject algorithm bounds c) w (.error f) w') ∧
    ∀ {o : Outcome} {f : Fault}, Breaks algorithm o f →
      (∀ f', Breaks algorithm o f' → f' = f) ∧
      ((∃ cause, f = failure algorithm cause ∧
          f.message = algorithm ++ Text.ofString " mct operation failed: " ++ cause) ∨
        PassesOn f ∧ o = .error f) :=
  ⟨fun h => heeding_runCase _ _ _ h, fun h => heeding_source _ _ _ h, ends_runCase_of_goes,
    fun h => ⟨fun _ h' => h.unique h', h.told⟩⟩

/-- This subject answers the first call of a chain, and raises a fault in the second. -/
def breaking (f : Fault) : Answering := fun _ args =>
  if args.headD [] = [7] then .ok [[8], [64, 0, 0, 0], []] else .error f

/-- An exchange with that subject. -/
def broken (f : Fault) : Setting (Desk Unit) Id := .stateless (breaking f) {}

/-- A set with one chain. -/
def oneChain : VectorSet :=
  { groups := [{ tgId := .int 1, testType := "MCT", minOutLen := some (.int 16),
                 maxOutLen := some (.int 64), outLenIncrement := some (.int 8), tests := [
    { tcId := .int 1, msgHex := "07", bitLength := .int 8 }] }] }

/-- The set is run with that subject. -/
def runBreaking (f : Fault) : (Except Fault (List GroupResponse) × Pool (Desk Unit)) × Log :=
  Id.run ((((Source.vectorSet oneChain).run (broken f).overheard "cSHAKE-128").run
    { client := { extra := () } }).run [])

/-- Its case alone is run with that subject. -/
def runBreakingCase (f : Fault) : Except Fault TestResponse × Log :=
  Id.run ((runCase (broken f).overheard.subject "cSHAKE-128" narrow twins[0]).run [])

/-- The chain gets to the second round, and is told the fault there. -/
theorem goes_breaking (f : Fault) :
    Goes (broken f).subject "cSHAKE-128" narrow 1 (start narrow twins[0]) ()
      { msg := [8], outLenBits := .int 64 } () ∧
    ∃ args, arguments narrow { msg := [8], outLenBits := .int 64 } = .ok args ∧
      Run ((broken f).subject (call "cSHAKE-128" args)) () (.error f) () :=
  ⟨.next rfl rfl rfl .done, _, rfl, rfl⟩

/-- The fault that tells that the subject is down. -/
def down : Fault := .subject (.told "down")

/-- A failure of the subject in the second round: the case makes two calls and so does the run, and
both stop with the failure of the round. -/
theorem runBreaking_breaks_off :
    ((runBreakingCase down).2.started.length = 2 ∧
        (runBreakingCase down).1 = .error (failure "cSHAKE-128" "down")) ∧
      ((runBreaking down).2.started.length = 2 ∧
        (runBreaking down).1.1 = .error (failure "cSHAKE-128" "down")) ∧
      Ends (runCase (broken down).subject "cSHAKE-128" narrow twins[0]) ()
        (.error (failure "cSHAKE-128" "down")) () ∧
      (failure "cSHAKE-128" "down").message = "cSHAKE-128 mct operation failed: down" := by
  obtain ⟨hcase, hrun, hgoes, htold⟩ := breaks_off (broken down) "cSHAKE-128"
  have hbreaks : Breaks "cSHAKE-128" (.error down) (failure "cSHAKE-128" "down") :=
    .subject (.told "down")
  obtain ⟨honly, hmessage⟩ := htold hbreaks
  refine ⟨?_, ?_, ?_, ?_⟩
  · have hends : Ends (runCase (broken down).overheard.subject "cSHAKE-128" narrow twins[0])
        ([], ()) (runBreakingCase down).1 ((runBreakingCase down).2, ()) := rfl
    obtain ⟨l, hl, hheeds⟩ := hcase hends
    obtain rfl : (runBreakingCase down).2 = l := hl
    obtain ⟨hcount, f, hf, hr⟩ := hheeds.stops (k := 1) rfl
    rw [honly f hf] at hr
    exact ⟨hcount, hr⟩
  · have hends : Ends ((Source.vectorSet oneChain).run (broken down).overheard "cSHAKE-128")
        ({ client := { extra := () } }, ([], ())) (runBreaking down).1.1
        ((runBreaking down).1.2, ((runBreaking down).2, ())) := run_id_twice rfl
    obtain ⟨l, hl, hheeds⟩ := hrun hends
    obtain rfl : (runBreaking down).2 = l := hl
    obtain ⟨hcount, f, hf, hr⟩ := hheeds.stops (k := 1) rfl
    rw [honly f hf] at hr
    exact ⟨hcount, hr⟩
  · obtain ⟨hto, args, hargs, ho⟩ := goes_breaking down
    obtain ⟨f, hf, hends⟩ := hgoes (by decide) hto hargs ho nofun
    rw [honly f hf] at hends
    exact hends
  · rcases hmessage with ⟨cause, hcause, hmessage⟩ | ⟨hpasses, -⟩
    · cases hcause
      exact hmessage
    · exact hpasses.elim

/-- Bad input that the subject tells of in the second round is passed on as it is. -/
theorem not_forall_breaks_failure : ¬ ∀ (subject : Subject Id) (c : PreparedCase) (k : Nat)
    (s : State) (args : List Bytes) (o : Outcome),
    k < 100 → Goes subject "cSHAKE-128" narrow k (start narrow c) () s () →
    arguments narrow s = .ok args → Run (subject (call "cSHAKE-128" args)) () o () → ¬ Usable o →
    ∃ cause, Ends (runCase subject "cSHAKE-128" narrow c) ()
      (.error (failure "cSHAKE-128" cause)) () := by
  intro h
  obtain ⟨hto, args, hargs, ho⟩ := goes_breaking (.input (.told "down"))
  obtain ⟨cause, hcause⟩ := h _ _ _ _ _ _ (by decide) hto hargs ho nofun
  obtain ⟨f, hbreaks, hends⟩ := ends_runCase_of_goes (by decide) hto hargs ho nofun
  cases hbreaks
  -- a subject without a state has one run only
  cases Eq.trans hcause (Eq.symm hends)

end MonteCarlo

end XofConformance
