import XofConformance.Proofs.Prepared.Validation
import XofConformance.Proofs.Run.Stateless

/-!
# The sequential reference

What a vector set is to come to when the subject has no state: one call after the other, in the
order of the document, written out field by field. A run on a pool comes to the same, in whatever
order the calls are released, executed and completed.

    (vs.run env algorithm).result written out = Reference.groups f algorithm groups
                                                                      (run_eq_reference)
-/

namespace XofConformance

namespace Reference

/-! ## Algorithm -/

/-- A field that is written under a condition. -/
def fieldIf (p : Prop) [Decidable p] (key : Text) (v : Json) : List (Text × Json) :=
  if p then [(key, v)] else []

/-- The arguments of a functional test. -/
def arguments (c : PreparedCase) : List Bytes :=
  [c.msg, Bytes.toWord (c.outLen.word / 8), c.functionName, c.customization]

/-- A functional test: one call, which has to give one result. -/
def functional (f : Answering) (algorithm : Text) (c : PreparedCase) : Option Json :=
  match f algorithm (arguments c) with
  | .ok [digest] => some (.object (("tcId", .number c.tcId) ::
      (fieldIf (digest ≠ []) "md" (.text digest.toHex) ++
        fieldIf (c.outLen.word ≠ 0) "outLen" (.number c.outLen))))
  | _ => none

/-- The arguments of a round, with the output length as the four bytes of a word. -/
def roundArguments (b : Bounds) (msg outLen customization : Bytes) : List Bytes :=
  [msg, Bytes.toWord b.minOutLen.word, Bytes.toWord b.maxOutLen.word, outLen,
    Bytes.toWord b.outLenIncrement.word, customization]

/-- The rounds of a chain: each call has to give three results, the second of four bytes, and
they are the first, the fourth and the last argument of the next call. -/
def rounds (f : Answering) (algorithm : Text) (b : Bounds) :
    Nat → Bytes → Bytes → Bytes → Option (List Json)
  | 0, _, _, _ => some []
  | n + 1, msg, outLen, customization =>
    match f (algorithm ++ "/MCT") (roundArguments b msg outLen customization) with
    | .ok [msg, outLen, customization] =>
      if outLen.length = 4 then
        (rounds f algorithm b n msg outLen customization).map fun rest =>
          .object (("md", .text msg.toHex) ::
            fieldIf (msg ≠ []) "outLen" (.int (msg.length * 8 : Nat))) :: rest
      else none
    | _ => none

/-- A Monte Carlo test: a chain of a hundred rounds. -/
def monteCarlo (f : Answering) (algorithm : Text) (b : Bounds) (c : PreparedCase) : Option Json :=
  (rounds f algorithm b 100 c.msg (Bytes.toWord b.maxOutLen.word) []).map fun results =>
    .object [("tcId", .number c.tcId), (Text.ofString "resultsArray", .array results)]

/-- A test of a group. -/
def test (f : Answering) (algorithm : Text) (g : PreparedGroup) : PreparedCase → Option Json :=
  match g.testType with
  | .functional => functional f algorithm
  | .monteCarlo => monteCarlo f algorithm g.bounds

/-- A group: its tests one after the other. -/
def group (f : Answering) (algorithm : Text) (g : PreparedGroup) : Option Json :=
  (g.cases.mapM (test f algorithm g)).map fun tests =>
    .object [("tgId", .number g.tgId), ("tests", .array tests)]

/-- All groups one after the other. -/
def groups (f : Answering) (algorithm : Text) (gs : List PreparedGroup) : Option (List Json) :=
  gs.mapM (group f algorithm)

/-! ## Lemmas -/

section

variable {f : Answering} {algorithm : Text}

/-! ## Functional tests -/

theorem arguments_eq {c : PreparedCase} (h : c.outLen.IsWord) :
    Functional.arguments c = .ok (arguments c) := by
  have hle : c.outLen.word / 8 ≤ Bytes.maxWord := by
    have := h.word_le
    omega
  unfold Functional.arguments
  rw [h.bytes_eq, Bytes.encodeWord_ofNat hle]
  rfl

theorem textField_eq {key : Text} {b : Bytes} :
    textField key b.toHex = fieldIf (b ≠ []) key (.text b.toHex) := by
  unfold textField fieldIf
  by_cases hb : b = []
  · subst hb
    rfl
  · rw [if_pos hb, if_neg]
    rw [List.isEmpty_iff, Bytes.toHex_eq_nil_iff]
    exact hb

theorem numberField_eq {key : Text} {n : Nat} :
    numberField key (.int n) = fieldIf (n ≠ 0) key (.int n) := by
  have hz : (Number.int n).isZero = true ↔ n = 0 := Number.isZero_int.trans Int.natCast_eq_zero
  unfold numberField fieldIf
  by_cases hn : n = 0
  · rw [if_pos (hz.2 hn), if_neg (not_not_intro hn)]
  · rw [if_pos hn, if_neg (mt hz.1 hn)]
    rfl

theorem response_toJson {c : PreparedCase} {digest : Bytes} (h : c.outLen.IsWord) :
    (Functional.response c [digest]).toJson = .object (("tcId", .number c.tcId) ::
      (fieldIf (digest ≠ []) "md" (.text digest.toHex) ++
        fieldIf (c.outLen.word ≠ 0) "outLen" (.number c.outLen))) := by
  have hlen : numberField "outLen" c.outLen =
      fieldIf (c.outLen.word ≠ 0) "outLen" (.number c.outLen) := by
    rw [h.eq_word]
    exact numberField_eq
  unfold TestResponse.toJson Functional.response
  rw [List.headD_cons, textField_eq, hlen, List.isEmpty_nil, if_pos rfl, List.append_nil]

theorem functional_of_answered {c : PreparedCase} {r : TestResponse} (hw : c.outLen.IsWord)
    (h : Functional.Answered (.ofFunction f) algorithm () c r) :
    functional f algorithm c = some r.toJson := by
  obtain ⟨args, results, ha, hg, hn, rfl⟩ := h
  rw [arguments_eq hw] at ha
  cases ha
  obtain ⟨digest, rfl⟩ := List.length_eq_one_iff.1 hn
  have hans : f algorithm (arguments c) = .ok [digest] := hg.symm
  unfold functional
  rw [hans, response_toJson hw]

theorem functional_of_failed {c : PreparedCase} (hw : c.outLen.IsWord)
    (h : Functional.Failed (.ofFunction f) algorithm () c) :
    functional f algorithm c = none := by
  rcases h with ⟨e, he⟩ | ⟨args, o, e, ha, hg, hs⟩
  · rw [arguments_eq hw] at he
    cases he
  rw [arguments_eq hw] at ha
  cases ha
  have hans : o = f algorithm (arguments c) := hg
  unfold functional
  split
  · next digest hd =>
    rw [hans, hd] at hs
    cases hs
  · rfl

/-! ## Monte Carlo tests -/

variable {b : Bounds} {n : Nat} {s : MonteCarlo.State}

/-- The bounds of a chain are words. -/
structure Words (b : Bounds) : Prop where
  minOutLen : b.minOutLen.IsWord
  maxOutLen : b.maxOutLen.IsWord
  outLenIncrement : b.outLenIncrement.IsWord

theorem roundArguments_eq (hb : Words b) (hs : s.outLenBits.IsWord) :
    MonteCarlo.arguments b s =
      .ok (roundArguments b s.msg (Bytes.toWord s.outLenBits.word) s.customization) := by
  unfold MonteCarlo.arguments
  rw [Bytes.encodeWord_word hb.minOutLen, Bytes.encodeWord_word hb.maxOutLen,
    Bytes.encodeWord_word hs, Bytes.encodeWord_word hb.outLenIncrement]
  rfl

theorem isWord_ofWord {outLen : Bytes} (h : outLen.length = 4) :
    (Number.int (Bytes.ofWord outLen)).IsWord := ⟨_, Bytes.ofWord_le h, rfl⟩

theorem result_toJson {msg customization : Bytes} {outLenBits : Number} :
    (MonteCarlo.State.result { msg, outLenBits, customization }).toJson =
      .object (("md", .text msg.toHex) ::
        fieldIf (msg ≠ []) "outLen" (.int (msg.length * 8 : Nat))) := by
  unfold MonteCarlo.State.result RoundResult.toJson Bytes.bitLength
  rw [numberField_eq]
  have hlen : msg.length * 8 ≠ 0 ↔ msg ≠ [] := by
    rw [← List.length_pos_iff]
    omega
  unfold fieldIf
  simp only [hlen]

/-- The rounds from a state of the chain. -/
def roundsFrom (f : Answering) (algorithm : Text) (b : Bounds) (n : Nat) (s : MonteCarlo.State) :
    Option (List Json) :=
  rounds f algorithm b n s.msg (Bytes.toWord s.outLenBits.word) s.customization

/-- A step that the subject has answered is a round. -/
theorem roundsFrom_of_step (hb : Words b)
    {next : MonteCarlo.State} (hs : s.outLenBits.IsWord)
    (h : MonteCarlo.Step (.ofFunction f) algorithm b () s next) :
    next.outLenBits.IsWord ∧ roundsFrom f algorithm b (n + 1) s =
      (roundsFrom f algorithm b n next).map fun rest => next.result.toJson :: rest := by
  obtain ⟨args, o, ha, hg, hst⟩ := h
  rw [roundArguments_eq hb hs] at ha
  cases ha
  obtain ⟨msg, outLen, customization, rfl, hlen, rfl⟩ := MonteCarlo.stateOf_eq_ok_iff.1 hst
  refine ⟨isWord_ofWord hlen, ?_⟩
  have hans : f (algorithm ++ "/MCT")
      (roundArguments b s.msg (Bytes.toWord s.outLenBits.word) s.customization) =
        .ok [msg, outLen, customization] := hg.symm
  have hword : Bytes.toWord (Number.int (Bytes.ofWord outLen)).word = outLen :=
    Bytes.toWord_ofWord hlen
  rw [roundsFrom, roundsFrom, rounds, hans, result_toJson, hword]
  exact if_pos hlen

/-- A state that is stuck has no round. -/
theorem roundsFrom_of_stuck (hb : Words b)
    (hs : s.outLenBits.IsWord) (h : MonteCarlo.Stuck (.ofFunction f) algorithm b () s) :
    roundsFrom f algorithm b (n + 1) s = none := by
  rcases h with ⟨e, he⟩ | ⟨args, o, e, ha, hg, hst⟩
  · rw [roundArguments_eq hb hs] at he
    cases he
  rw [roundArguments_eq hb hs] at ha
  cases ha
  have hans : o = f (algorithm ++ "/MCT")
      (roundArguments b s.msg (Bytes.toWord s.outLenBits.word) s.customization) := hg
  unfold roundsFrom rounds
  split
  · next msg outLen customization hok =>
    rw [if_neg]
    intro hlen
    cases hst.symm.trans (MonteCarlo.stateOf_eq_ok_iff.2
      ⟨msg, outLen, customization, hans.trans hok, hlen, rfl⟩)
  · rfl

/-- The rounds of a chain are the steps that the subject has answered. -/
theorem roundsFrom_of_steps (hb : Words b)
    {results : List RoundResult} (hs : s.outLenBits.IsWord)
    (h : MonteCarlo.Steps (.ofFunction f) algorithm b () n s results) :
    roundsFrom f algorithm b n s = some (results.map RoundResult.toJson) := by
  induction h with
  | done s => rfl
  | step hstep _ ih =>
    obtain ⟨hnext, heq⟩ := roundsFrom_of_step hb hs hstep
    rw [heq, ih hnext]
    rfl

/-- A chain that breaks has no rounds. -/
theorem roundsFrom_of_broken (hb : Words b)
    (hs : s.outLenBits.IsWord) (h : MonteCarlo.Broken (.ofFunction f) algorithm b () n s) :
    roundsFrom f algorithm b n s = none := by
  induction h with
  | here hstuck => exact roundsFrom_of_stuck hb hs hstuck
  | next hstep _ ih =>
    obtain ⟨hnext, heq⟩ := roundsFrom_of_step hb hs hstep
    rw [heq, ih hnext]
    rfl

theorem monteCarlo_of_answered (hb : Words b)
    {c : PreparedCase} {r : TestResponse}
    (h : MonteCarlo.Answered (.ofFunction f) algorithm b () c r) :
    monteCarlo f algorithm b c = some r.toJson := by
  obtain ⟨results, hsteps, rfl⟩ := h
  have hrounds : rounds f algorithm b 100 c.msg (Bytes.toWord b.maxOutLen.word) [] =
      some (results.map RoundResult.toJson) := roundsFrom_of_steps hb hb.maxOutLen hsteps
  have hne : results.isEmpty = false := by
    rw [List.isEmpty_eq_false_iff_exists_mem]
    have hlen : results.length = 100 := hsteps.length
    exact List.exists_mem_of_length_pos (by omega)
  unfold monteCarlo
  rw [hrounds]
  simp only [TestResponse.toJson, hne]
  rfl

theorem monteCarlo_of_failed (hb : Words b)
    {c : PreparedCase} (h : MonteCarlo.Failed (.ofFunction f) algorithm b () c) :
    monteCarlo f algorithm b c = none := by
  have hrounds : rounds f algorithm b 100 c.msg (Bytes.toWord b.maxOutLen.word) [] = none :=
    roundsFrom_of_broken hb hb.maxOutLen h
  unfold monteCarlo
  rw [hrounds]
  rfl

/-! ## Groups -/

variable {g : PreparedGroup} {gs : List PreparedGroup}

theorem test_of_answered (hg : g.HasWords)
    {c : PreparedCase} {r : TestResponse} (hc : c.outLen.IsWord)
    (h : g.CaseAnswered (.ofFunction f) algorithm () c r) :
    test f algorithm g c = some r.toJson := by
  unfold PreparedGroup.CaseAnswered at h
  unfold test
  cases ht : g.testType with
  | functional =>
    rw [ht] at h
    exact functional_of_answered hc h
  | monteCarlo =>
    rw [ht] at h
    exact monteCarlo_of_answered ⟨hg.minOutLen, hg.maxOutLen, hg.outLenIncrement⟩ h

theorem test_of_failed (hg : g.HasWords)
    {c : PreparedCase} (hc : c.outLen.IsWord) (h : g.CaseFailed (.ofFunction f) algorithm () c) :
    test f algorithm g c = none := by
  unfold PreparedGroup.CaseFailed at h
  unfold test
  cases ht : g.testType with
  | functional =>
    rw [ht] at h
    exact functional_of_failed hc h
  | monteCarlo =>
    rw [ht] at h
    exact monteCarlo_of_failed ⟨hg.minOutLen, hg.maxOutLen, hg.outLenIncrement⟩ h

theorem group_of_answered (hg : g.HasWords)
    {r : GroupResponse} (h : g.Answered (.ofFunction f) algorithm () r) :
    group f algorithm g = some r.toJson := by
  have htests : g.cases.mapM (test f algorithm g) = some (r.tests.map TestResponse.toJson) := by
    apply mapM_eq_some
    rw [List.forall₂_map_right_iff]
    have hboth := (List.forall₂_and_left _ _).2 ⟨hg.outLen, h.tests⟩
    exact hboth.imp fun c r hc => test_of_answered hg hc.1 hc.2
  unfold group
  rw [htests, ← h.tgId]
  rfl

theorem group_of_failed (hg : g.HasWords)
    (h : g.Failed (.ofFunction f) algorithm ()) : group f algorithm g = none := by
  obtain ⟨c, hc, hfail⟩ := h
  unfold group
  rw [mapM_eq_none hc (test_of_failed hg (hg.outLen c hc) hfail)]
  rfl

/-- Whatever groups have come to with nothing lost, the reference comes to. -/
theorem groups_of_verdict {q : Except Fault (List GroupResponse)} (hgs : ∀ g ∈ gs, g.HasWords)
    (h : Verdict (List.Forall₂ (PreparedGroup.Answered (.ofFunction f) algorithm ()) gs)
      (∃ g ∈ gs, g.Failed (.ofFunction f) algorithm ()) q) :
    q.toOption.map (List.map GroupResponse.toJson) = groups f algorithm gs := by
  unfold groups
  cases q with
  | ok responses =>
    symm
    apply mapM_eq_some
    rw [List.forall₂_map_right_iff]
    have hboth := (List.forall₂_and_left _ _).2 ⟨hgs, h⟩
    exact hboth.imp fun g r hg => group_of_answered hg.1 hg.2
  | error e =>
    obtain ⟨g, hg, hfail⟩ := h
    rw [mapM_eq_none hg (group_of_failed (hgs g hg) hfail)]
    rfl

end

end Reference

/-! ## Top theorems -/

/-- A run on an idle pool comes to what the sequential reference comes to, in whatever order the
calls are released to the workers and whoever takes the turns; and it fails exactly if a call of
the reference does. -/
theorem VectorSet.run_eq_reference {ε : Type} (f : Answering) (schedule : Schedule (Desk ε))
    (hrelease : schedule.Faithful) (hlost : ∀ n, schedule.lost n = false) (algorithm : Text)
    {vs : VectorSet} {gs : List PreparedGroup} (hprepare : vs.prepare = .ok gs)
    (hwords : vs.HasWords) {p : Pool (Desk ε)} (hp : p.IsIdle) :
    (Id.run ((vs.run (.stateless f schedule) algorithm).run p)).1.toOption.map
        (List.map GroupResponse.toJson) =
      Reference.groups f algorithm gs := by
  have hends : Ends (vs.run (.stateless f schedule) algorithm) (p, ())
      (Id.run ((vs.run (.stateless f schedule) algorithm).run p)).1
      ((Id.run ((vs.run (.stateless f schedule) algorithm).run p)).2, ()) := rfl
  obtain ⟨-, -, hres⟩ :=
    ends_vectorSet (A := Account.stateless f schedule) hrelease hp trivial hends
  rw [hprepare] at hres
  exact Reference.groups_of_verdict (hwords.prepared hprepare)
    (hres.verdict (fun hg => ⟨_, hg, rfl⟩) hlost)

/-- Two tests released in reverse, with the workers taking turns, answered in the order of the
document. -/
theorem VectorSet.run_reversed_eq_reference :
    let f : Answering := fun _ args => .ok [args.headD []]
    let p : Pool (Desk Unit) := { client := { extra := () } }
    (Id.run ((twoTests.run (.stateless f .alternating) "cSHAKE-128").run p)).1.toOption.map
        (List.map GroupResponse.toJson) =
      some [.object [("tgId", .int 1), ("tests", .array [
        .object [("tcId", .int 1), ("md", .text "00ff"), ("outLen", .int 32)],
        .object [("tcId", .int 2), ("md", .text "01")]])]] := by
  intro f p
  have hword : ∀ n : Nat, n ≤ 32 → (Number.int n).IsWord := fun n hn =>
    ⟨n, by unfold Bytes.maxWord; omega, rfl⟩
  have hwords : twoTests.HasWords := by
    intro g hg
    rw [List.mem_singleton.1 hg]
    refine ⟨fun t ht => ?_, fun ht => ?_⟩
    · rcases List.mem_cons.1 ht with rfl | ht
      · exact hword 32 (Nat.le_refl _)
      · rw [List.mem_singleton.1 ht]
        exact hword 0 (Nat.zero_le _)
    · exact absurd ht (by decide)
  have hprepare : twoTests.prepare = .ok [{ tgId := .int 1, testType := .functional, cases := [
      { tcId := .int 1, msg := [0, 255], functionName := [], customization := [],
        outLen := .int 32 },
      { tcId := .int 2, msg := [1], functionName := [], customization := [],
        outLen := .int 0 }] }] := rfl
  exact run_eq_reference f .alternating List.reverse_perm (fun _ => rfl) "cSHAKE-128" hprepare
    hwords ⟨rfl, rfl⟩

end XofConformance
