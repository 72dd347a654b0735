import XofConformance.Proofs.Prepared.Distinct
import XofConformance.Proofs.Run.Drained
import XofConformance.Proofs.Run.Mirror
import XofConformance.Proofs.Run.Reference
import XofConformance.Proofs.VectorSet.Lengths

/-!
# Calls that can be made

A document may write a length as `32.0`. Such a length passes for a word everywhere, and only the
call that is to be made of it cannot be made. If a case writes its lengths as integers then each of
its calls can be made, in every state that its chain can come to, and a run of such cases can only
fail by what the subject answers.

    Functional.arguments c = .ok _ ↔ c.outLen is written as an integer        (arguments_cases)
    every state of a chain has arguments, or none has              (Reachable.arguments_cases)
-/

namespace XofConformance

/-! ## Words -/

/-- What fits into a word is encoded if it is written as an integer, and not otherwise. -/
theorem Bytes.encodeWord_cases {n : Number} (h : n.FitsWord) :
    (n.IsWord ∧ encodeWord n = .ok (toWord n.word)) ∨
      (¬ n.IsInt ∧ encodeWord n = .error (.defect .fractionalWord)) := by
  cases n with
  | int k => exact Or.inl ⟨h.isWord, encodeWord_word h.isWord⟩
  | float x =>
    refine Or.inr ⟨?_, encodeWord_float h⟩
    rintro ⟨k, ⟨⟩⟩

theorem Number.IsWord.isInt {n : Number} (h : n.IsWord) : n.IsInt := by
  obtain ⟨k, -, rfl⟩ := h
  exact ⟨k, rfl⟩

/-- Bits and whole bytes are written in the same form. -/
theorem Number.isInt_bytes_iff {n : Number} : n.bytes.IsInt ↔ n.IsInt := by
  cases n with
  | int k => exact iff_of_true ⟨_, rfl⟩ ⟨k, rfl⟩
  | float x =>
    refine iff_of_false ?_ ?_
    · cases x <;> rintro ⟨k, ⟨⟩⟩
    · rintro ⟨k, ⟨⟩⟩

/-! ## Functional tests -/

/-- The call of a test can be made if its length is written as an integer, and not otherwise. -/
theorem Functional.arguments_cases {c : PreparedCase} (h : c.outLen.FitsWord) :
    (c.outLen.IsInt ∧ arguments c = .ok (Reference.arguments c)) ∨
      (¬ c.outLen.IsInt ∧ arguments c = .error (.defect .fractionalWord)) := by
  rcases Bytes.encodeWord_cases h with ⟨hword, -⟩ | ⟨hint, -⟩
  · exact Or.inl ⟨hword.isInt, Reference.arguments_eq hword⟩
  · refine Or.inr ⟨hint, ?_⟩
    rcases Bytes.encodeWord_cases h.bytes with ⟨hword, -⟩ | ⟨-, he⟩
    · exact absurd (Number.isInt_bytes_iff.1 hword.isInt) hint
    · unfold arguments
      rw [he]
      rfl

/-! ## Monte Carlo tests -/

namespace MonteCarlo

variable {bounds : Bounds} {c : PreparedCase} {s next : State}

/-- The chain of a case can come to the state, whatever the subject answers. -/
inductive Reachable (bounds : Bounds) (c : PreparedCase) : State → Prop
  | start : Reachable bounds c (start bounds c)
  | next {s next : State} {args results : List Bytes} : Reachable bounds c s →
    arguments bounds s = .ok args → nextState results = .ok next → Reachable bounds c next

/-- All bounds are written as integers. -/
structure AreInts (bounds : Bounds) : Prop where
  minOutLen : bounds.minOutLen.IsInt
  maxOutLen : bounds.maxOutLen.IsInt
  outLenIncrement : bounds.outLenIncrement.IsInt

/-- The state after a round asks for a length that is a word. -/
theorem isWord_of_nextState {results : List Bytes} (h : nextState results = .ok next) :
    next.outLenBits.IsWord := by
  unfold nextState at h
  split at h
  · next msg outLen customization =>
    unfold Bytes.decodeWord at h
    by_cases hlen : outLen.length = 4
    · simp only [if_pos hlen] at h
      cases h
      exact Reference.isWord_ofWord hlen
    · simp only [if_neg hlen] at h
      cases h
  · cases h

/-- A state of a chain asks for the greatest length, or for a length that is a word. -/
theorem Reachable.outLenBits (h : Reachable bounds c s) :
    s.outLenBits = bounds.maxOutLen ∨ s.outLenBits.IsWord := by
  cases h with
  | start => exact Or.inl rfl
  | next _ _ hnext => exact Or.inr (isWord_of_nextState hnext)

/-- The call of a state of a chain can be made if the bounds are written as integers, and not
otherwise. -/
theorem Reachable.arguments_cases (h : Reachable bounds c s) (hmin : bounds.minOutLen.FitsWord)
    (hmax : bounds.maxOutLen.FitsWord) (hinc : bounds.outLenIncrement.FitsWord) :
    (AreInts bounds ∧ arguments bounds s = .ok
        (Reference.roundArguments bounds s.msg (Bytes.toWord s.outLenBits.word) s.customization)) ∨
      (¬ AreInts bounds ∧ arguments bounds s = .error (.defect .fractionalWord)) := by
  rcases Bytes.encodeWord_cases hmin with ⟨hwmin, hemin⟩ | ⟨hno, he⟩
  swap
  · refine Or.inr ⟨fun hints => hno hints.minOutLen, ?_⟩
    unfold arguments
    rw [he]
    rfl
  rcases Bytes.encodeWord_cases hmax with ⟨hwmax, hemax⟩ | ⟨hno, he⟩
  swap
  · refine Or.inr ⟨fun hints => hno hints.maxOutLen, ?_⟩
    unfold arguments
    rw [hemin, he]
    rfl
  have hs : s.outLenBits.IsWord := by
    rcases h.outLenBits with hs | hs
    · rw [hs]
      exact hwmax
    · exact hs
  rcases Bytes.encodeWord_cases hinc with ⟨hwinc, -⟩ | ⟨hno, he⟩
  · exact Or.inl ⟨⟨hwmin.isInt, hwmax.isInt, hwinc.isInt⟩,
      Reference.roundArguments_eq ⟨hwmin, hwmax, hwinc⟩ hs⟩
  · refine Or.inr ⟨fun hints => hno hints.outLenIncrement, ?_⟩
    unfold arguments
    rw [hemin, hemax, Bytes.encodeWord_word hs, he]
    rfl

section

variable {W : Type} {R : Records W} {w : W} {algorithm : Text} {n : Nat}

theorem Reachable.step (h : Reachable bounds c s) (hstep : Step R algorithm bounds w s next) :
    Reachable bounds c next := by
  obtain ⟨args, o, ha, -, hstate⟩ := hstep
  obtain ⟨results, -, hnext⟩ := exists_of_bind_eq_ok hstate
  exact .next h ha hnext

/-- A chain that breaks comes to a state that is stuck. -/
theorem Reachable.stuck (h : Reachable bounds c s) (hbroken : Broken R algorithm bounds w n s) :
    ∃ s', Reachable bounds c s' ∧ Stuck R algorithm bounds w s' := by
  induction hbroken with
  | here hstuck => exact ⟨_, h, hstuck⟩
  | next hstep _ ih => exact ih (h.step hstep)

end

end MonteCarlo

/-! ## Runs -/

namespace PreparedGroup

variable {g : PreparedGroup} {c : PreparedCase} {algorithm : Text}

/-- The lengths that the calls of a case tell are written as integers. -/
def Integral (g : PreparedGroup) (c : PreparedCase) : Prop :=
  match g.testType with
  | .functional => c.outLen.IsInt
  | .monteCarlo => MonteCarlo.AreInts g.bounds

/-- A call of the case was made, and what the subject answered is no answer to it. -/
def Defied (log : Transcript) (algorithm : Text) (g : PreparedGroup) (c : PreparedCase) : Prop :=
  match g.testType with
  | .functional => ∃ args o f, Functional.arguments c = .ok args ∧
      (Functional.call algorithm args, o) ∈ log ∧
      (Functional.call algorithm args).settle o = .error f
  | .monteCarlo => ∃ s args o f, MonteCarlo.Reachable g.bounds c s ∧
      MonteCarlo.arguments g.bounds s = .ok args ∧ (MonteCarlo.call algorithm args, o) ∈ log ∧
      MonteCarlo.stateOf (MonteCarlo.call algorithm args) o = .error f

variable {σ : Type} {w : (σ × Transcript) × Unit}

/-- A case that was answered tells its lengths as integers. -/
theorem integral_of_answered {r : TestResponse} (hg : g.EveryLength Number.FitsWord)
    (hc : c ∈ g.cases) (h : g.CaseAnswered (Records.transcribed σ) algorithm w c r) :
    g.Integral c := by
  unfold CaseAnswered at h
  unfold Integral
  cases ht : g.testType with
  | functional =>
    rw [ht] at h
    obtain ⟨args, -, ha, -⟩ := h
    rcases Functional.arguments_cases (hg.outLen c hc) with ⟨hint, -⟩ | ⟨-, he⟩
    · exact hint
    · rw [ha] at he
      cases he
  | monteCarlo =>
    rw [ht] at h
    obtain ⟨rounds, hsteps, -⟩ := h
    cases hsteps with
    | step hstep _ =>
      obtain ⟨args, -, ha, -⟩ := hstep
      rcases MonteCarlo.Reachable.start.arguments_cases hg.minOutLen hg.maxOutLen
        hg.outLenIncrement with ⟨hints, -⟩ | ⟨-, he⟩
      · exact hints
      · rw [ha] at he
        cases he

/-- In a case that has failed, the subject is to blame, unless a length is no integer. -/
theorem defied_of_failed (hg : g.EveryLength Number.FitsWord) (hc : c ∈ g.cases)
    (h : g.CaseFailed (Records.transcribed σ) algorithm w c) :
    ¬ g.Integral c ∨ g.Defied w.1.2 algorithm c := by
  unfold CaseFailed at h
  unfold Integral Defied
  cases ht : g.testType with
  | functional =>
    rw [ht] at h
    rcases h with ⟨f, he⟩ | ⟨args, o, f, ha, hgiven, hs⟩
    · rcases Functional.arguments_cases (hg.outLen c hc) with ⟨-, ha⟩ | ⟨hint, -⟩
      · rw [ha] at he
        cases he
      · exact Or.inl hint
    · exact Or.inr ⟨args, o, f, ha, hgiven, hs⟩
  | monteCarlo =>
    rw [ht] at h
    obtain ⟨s, hreach, hstuck⟩ := MonteCarlo.Reachable.start.stuck h
    rcases hstuck with ⟨f, he⟩ | ⟨args, o, f, ha, hgiven, hs⟩
    · rcases hreach.arguments_cases hg.minOutLen hg.maxOutLen hg.outLenIncrement with
        ⟨-, ha⟩ | ⟨hints, -⟩
      · rw [ha] at he
        cases he
      · exact Or.inl hints
    · exact Or.inr ⟨s, args, o, f, hreach, ha, hgiven, hs⟩

end PreparedGroup

/-! ## Top theorem -/

/-- What holds of a document that is read and prepared. Every call of a case, in whatever state of
its chain, can be made if its lengths are written as integers, and else none of them can. So a run
returns only if all lengths are, and it fails only if a length is not, if the subject failed in a
case, or if a call was lost. -/
theorem Source.callable_iff_integral {d : Document} {groups : List PreparedGroup}
    (hprepare : (Source.document d).prepare = .ok groups) :
    (∀ g ∈ groups, g.testType = .functional → ∀ c ∈ g.cases,
      (g.Integral c → Functional.arguments c = .ok (Reference.arguments c)) ∧
      (¬ g.Integral c → Functional.arguments c = .error (.defect .fractionalWord))) ∧
    (∀ g ∈ groups, g.testType = .monteCarlo → ∀ c ∈ g.cases, ∀ s,
      MonteCarlo.Reachable g.bounds c s →
      (g.Integral c → MonteCarlo.arguments g.bounds s = .ok (Reference.roundArguments g.bounds
        s.msg (Bytes.toWord s.outLenBits.word) s.customization)) ∧
      (¬ g.Integral c → MonteCarlo.arguments g.bounds s =
        .error (.defect .fractionalWord))) ∧
    ∀ {σ ε : Type} (subject : Subject (StateM σ)) (schedule : Schedule (Desk ε)),
      schedule.Faithful → ∀ (algorithm : Text) (p p' : Pool (Desk ε)), p.IsIdle →
      ∀ (s s' : σ) (log : Transcript) (q : Except Fault (List GroupResponse)),
      Id.run ((((Source.document d).run { subject := subject.transcribed, schedule }
        algorithm).run p).run (s, [])) = ((q, p'), (s', log)) →
      Verdict (fun _ => ∀ g ∈ groups, ∀ c ∈ g.cases, g.Integral c)
        ((∃ g ∈ groups, ∃ c ∈ g.cases, ¬ g.Integral c ∨ g.Defied log algorithm c) ∨
          schedule.Loses p p') q := by
  have hlengths : ∀ g ∈ groups, g.EveryLength Number.FitsWord := by
    obtain ⟨vs, hread, hvs⟩ := exists_of_bind_eq_ok hprepare
    exact VectorSet.everyLength_of_prepare Number.fitsWord_zero
      (VectorSet.everyLength_of_ofDocument hread) hvs
  refine ⟨fun g hg ht c hc => ?_, fun g hg ht c hc s hs => ?_, ?_⟩
  · unfold PreparedGroup.Integral
    rw [ht]
    rcases Functional.arguments_cases ((hlengths g hg).outLen c hc) with ⟨hint, ha⟩ | ⟨hint, ha⟩
    · exact ⟨fun _ => ha, fun hno => absurd hint hno⟩
    · exact ⟨fun h => absurd h hint, fun _ => ha⟩
  · unfold PreparedGroup.Integral
    rw [ht]
    obtain ⟨-, hmin, hmax, hinc⟩ := hlengths g hg
    rcases hs.arguments_cases hmin hmax hinc with ⟨hints, ha⟩ | ⟨hints, ha⟩
    · exact ⟨fun _ => ha, fun hno => absurd hints hno⟩
    · exact ⟨fun h => absurd h hints, fun _ => ha⟩
  · intro σ ε subject schedule hf algorithm p p' hp s s' log q hrun
    have hends : Ends ((Source.document d).run { subject := subject.transcribed, schedule }
        algorithm) (p, ((s, []), ())) q (p', ((s', log), ())) := hrun.symm
    rcases ends_run.1 hends with ⟨f, he, -⟩ | ⟨groups', hgroups, hdrained⟩
    · rw [hprepare] at he
      cases he
    rw [hprepare] at hgroups
    cases hgroups
    obtain ⟨-, -, -, hres⟩ := PreparedGroup.ends_runDrained
      (A := Account.transcribed subject schedule) hf hp trivial hdrained
    cases q with
    | ok responses =>
      intro g hg c hc
      obtain ⟨r, -, hr⟩ := exists_right_of_forall₂ hres.1 hg
      obtain ⟨t, -, ht⟩ := exists_right_of_forall₂ hr.tests hc
      exact PreparedGroup.integral_of_answered (hlengths g hg) hc ht
    | error f =>
      refine hres.imp_left ?_
      rintro ⟨g, hg, c, hc, hfail⟩
      exact ⟨g, hg, c, hc, PreparedGroup.defied_of_failed (hlengths g hg) hc hfail⟩

/-- A document of one functional test, with its output length written as a text. -/
def Document.oneTest (length : Text) : Document := .text
  ("\x7b\"testGroups\":[\x7b\"tgId\":1,\"testType\":\"AFT\",\"tests\":[" ++
    "\x7b\"tcId\":1,\"msg\":\"\",\"len\":0,\"outLen\":" ++ length ++ "\x7d]\x7d]\x7d")

/-- That test, prepared. -/
def PreparedCase.oneTest (outLen : Number) : PreparedCase :=
  { tcId := .int 1, msg := [], functionName := [], customization := [], outLen }

/-- The group of that test, prepared. -/
def PreparedGroup.oneTest (outLen : Number) : PreparedGroup :=
  { tgId := .int 1, testType := .functional, cases := [.oneTest outLen] }

/-- That document, run on a new pool by the subject that counts. -/
def Source.runOneTest (length : Text) :=
  Id.run ((((Source.document (.oneTest length)).run
    { subject := Subject.counting.transcribed, schedule := .alternating } "cSHAKE-128").run
      { client := { extra := () } }).run (0, []))

/-- A length of four bytes, written as an integer: the call is made, and what the run comes to is
an answer, or the doing of the subject. -/
theorem Source.oneTest_callable :
    (Source.document (.oneTest "32")).prepare.toOption = some [.oneTest (.int 32)] ∧
      Functional.arguments (.oneTest (.int 32)) = .ok [[], [4, 0, 0, 0], [], []] ∧
      Verdict (fun _ => True)
        (∃ c, (PreparedGroup.oneTest (.int 32)).Defied (runOneTest "32").2.2 "cSHAKE-128" c)
        (runOneTest "32").1.1 := by
  have hprep : (Source.document (.oneTest "32")).prepare.toOption = some [.oneTest (.int 32)] := by
    decide +kernel
  have hok : (Source.document (.oneTest "32")).prepare = .ok [.oneTest (.int 32)] := by
    cases hp : (Source.document (.oneTest "32")).prepare with
    | error f =>
      rw [hp] at hprep
      cases hprep
    | ok groups =>
      rw [hp] at hprep
      exact congrArg Except.ok (Option.some.inj hprep)
  have hint : (PreparedGroup.oneTest (.int 32)).Integral (.oneTest (.int 32)) := ⟨32, rfl⟩
  have hargs : Reference.arguments (.oneTest (.int 32)) = [[], [4, 0, 0, 0], [], []] := by decide
  obtain ⟨hcalls, -, hruns⟩ := Source.callable_iff_integral hok
  have hcall := (hcalls _ (List.mem_singleton_self _) rfl _ (List.mem_singleton_self _)).1 hint
  rw [hargs] at hcall
  refine ⟨hprep, hcall, ?_⟩
  rcases hrun : runOneTest "32" with ⟨⟨q, p'⟩, s', log⟩
  have hverdict := hruns Subject.counting .alternating List.reverse_perm "cSHAKE-128"
    { client := { extra := () } } p' ⟨rfl, rfl⟩ 0 s' log q hrun
  cases q with
  | ok responses => trivial
  | error f =>
    rcases hverdict with ⟨g, hg, c, hc, hwhy⟩ | ⟨n, -, -, hlost⟩
    · obtain rfl := List.mem_singleton.1 hg
      obtain rfl := List.mem_singleton.1 hc
      exact ⟨_, hwhy.resolve_left (not_not_intro hint)⟩
    · cases hlost

/-- The same length written as `32.0`: the document is prepared, and yet its call cannot be made.
The run fails before the subject is asked. -/
theorem Source.oneTest_not_callable :
    let length : Number := .float (.finite 32)
    (Source.document (.oneTest "32.0")).prepare.toOption = some [.oneTest length] ∧
      Functional.arguments (.oneTest length) = .error (.defect .fractionalWord) ∧
      (runOneTest "32.0").1.1.toBool = false ∧ (runOneTest "32.0").2.2 = [] := by
  intro length
  have hworth : length.IsWorth 32 := by
    show Number.Worth.finite 32 = .finite (Dyadic.ofInt 32)
    decide +kernel
  refine ⟨by decide +kernel, ?_, by decide +kernel, by decide +kernel⟩
  have hcases := Functional.arguments_cases (c := .oneTest length) ⟨32, by decide, hworth⟩
  rcases hcases with ⟨⟨k, hk⟩, -⟩ | ⟨-, hno⟩
  · cases hk
  · exact hno

end XofConformance
