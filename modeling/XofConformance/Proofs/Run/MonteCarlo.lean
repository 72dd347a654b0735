import XofConformance.Proofs.Exchange.Account
import XofConformance.Proofs.Exchange.Desk
import XofConformance.Run.Process

/-!
# Running a Monte Carlo group

A chain is a number of steps, each an answer of the subject to the call of the state before it.
Running a chain comes to the results of such steps, or to a state whose step failed. The cases of
a group fill their slots one after the other, with nothing handed to the pool.

    Ends (chain subject algorithm bounds n s) w r w' → a chain of steps, or a broken one
                                                                              (ends_chain)
-/

namespace XofConformance.MonteCarlo

variable {W : Type} {R : Records W} {algorithm : Text} {bounds : Bounds} {w w' : W} {n : Nat}
  {s next : State}

/-! ## Steps -/

/-- The call of a round. -/
def call (algorithm : Text) (args : List Bytes) : Call :=
  { op := operation algorithm, expected := 3, args }

/-- An answer to a call, taken as the next state. -/
def stateOf (c : Call) (o : Outcome) : Except Fault State := c.settle o >>= nextState

/-- An answer is a state if it is three byte strings, the second of them a word. -/
theorem stateOf_eq_ok_iff {args : List Bytes} {o : Outcome} :
    stateOf (call algorithm args) o = .ok next ↔
      ∃ msg outLen customization, o = .ok [msg, outLen, customization] ∧ outLen.length = 4 ∧
        next = { msg, outLenBits := .int (Bytes.ofWord outLen), customization } := by
  unfold stateOf
  constructor
  · intro h
    cases hs : (call algorithm args).settle o with
    | error f =>
      rw [hs] at h
      cases h
    | ok results =>
      rw [hs] at h
      obtain ⟨rfl, hlen⟩ := Call.settle_eq_ok_iff.1 hs
      have hthree : (results.length : Int) = 3 := hlen
      obtain ⟨msg, outLen, customization, rfl⟩ :=
        List.length_eq_three.1 (show results.length = 3 by omega)
      refine ⟨msg, outLen, customization, rfl, ?_⟩
      have hnext : nextState [msg, outLen, customization] = .ok next := h
      unfold nextState Bytes.decodeWord at hnext
      by_cases hw : outLen.length = 4
      · simp only [hw, if_true] at hnext
        cases hnext
        exact ⟨hw, rfl⟩
      · simp only [hw, if_false] at hnext
        cases hnext
  · rintro ⟨msg, outLen, customization, rfl, hw, rfl⟩
    have hs : (call algorithm args).settle (.ok [msg, outLen, customization]) =
        .ok [msg, outLen, customization] := Call.settle_eq_ok_iff.2 ⟨rfl, rfl⟩
    rw [hs]
    show nextState [msg, outLen, customization] = _
    unfold nextState Bytes.decodeWord
    simp only [hw, if_true]

/-- The subject has answered the call of a state with the next state. -/
def Step (R : Records W) (algorithm : Text) (bounds : Bounds) (w : W) (s next : State) : Prop :=
  ∃ args o, arguments bounds s = .ok args ∧ R.Given w (call algorithm args) o ∧
    stateOf (call algorithm args) o = .ok next

/-- The state has no call, or the subject has given it an answer that is no state. -/
def Stuck (R : Records W) (algorithm : Text) (bounds : Bounds) (w : W) (s : State) : Prop :=
  (∃ f, arguments bounds s = .error f) ∨
    ∃ args o f, arguments bounds s = .ok args ∧ R.Given w (call algorithm args) o ∧
      stateOf (call algorithm args) o = .error f

/-- A number of steps one after the other, and what they report. -/
inductive Steps (R : Records W) (algorithm : Text) (bounds : Bounds) (w : W) :
    Nat → State → List RoundResult → Prop
  | done (s : State) : Steps R algorithm bounds w 0 s []
  | step {n : Nat} {s next : State} {results : List RoundResult} :
    Step R algorithm bounds w s next → Steps R algorithm bounds w n next results →
    Steps R algorithm bounds w (n + 1) s (next.result :: results)

/-- A number of steps of which one cannot be taken. -/
inductive Broken (R : Records W) (algorithm : Text) (bounds : Bounds) (w : W) :
    Nat → State → Prop
  | here {n : Nat} {s : State} : Stuck R algorithm bounds w s → Broken R algorithm bounds w (n + 1) s
  | next {n : Nat} {s next : State} :
    Step R algorithm bounds w s next → Broken R algorithm bounds w n next →
    Broken R algorithm bounds w (n + 1) s

/-- What the chain of a case starts from. -/
def start (bounds : Bounds) (c : PreparedCase) : State :=
  { msg := c.msg, outLenBits := bounds.maxOutLen }

/-- The response tells a whole chain of the case. -/
def Answered (R : Records W) (algorithm : Text) (bounds : Bounds) (w : W) (c : PreparedCase)
    (r : TestResponse) : Prop :=
  ∃ rounds, Steps R algorithm bounds w roundCount (start bounds c) rounds ∧
    r = { tcId := c.tcId, rounds }

/-- The chain of the case breaks. -/
def Failed (R : Records W) (algorithm : Text) (bounds : Bounds) (w : W) (c : PreparedCase) : Prop :=
  Broken R algorithm bounds w roundCount (start bounds c)

theorem Steps.length {results : List RoundResult} (h : Steps R algorithm bounds w n s results) :
    results.length = n := by
  induction h with
  | done => rfl
  | step _ _ ih => rw [List.length_cons, ih]

/-! What is known by one record is known by every record that tells as much. -/

section

variable {W' : Type} {R' : Records W'} {w' : W'}

theorem Step.told (h : Step R algorithm bounds w s next) (ht : R.Tells w R' w') :
    Step R' algorithm bounds w' s next := by
  obtain ⟨args, o, ha, hg, hs⟩ := h
  obtain ⟨msg, outLen, customization, rfl, -⟩ := stateOf_eq_ok_iff.1 hs
  exact ⟨args, _, ha, ht.ok hg, hs⟩

theorem Stuck.told (h : Stuck R algorithm bounds w s) (ht : R.Tells w R' w') :
    Stuck R' algorithm bounds w' s := by
  rcases h with h | ⟨args, o, f, ha, hg, hs⟩
  · exact Or.inl h
  · obtain ⟨o', hg', ho⟩ := ht hg
    cases hs' : stateOf (call algorithm args) o' with
    | error f' => exact Or.inr ⟨args, o', f', ha, hg', hs'⟩
    | ok next =>
      obtain ⟨msg, outLen, customization, rfl, -⟩ := stateOf_eq_ok_iff.1 hs'
      cases o with
      | error _ => cases ho
      | ok results =>
        cases ho
        rw [hs'] at hs
        cases hs

theorem Steps.told {results : List RoundResult} (h : Steps R algorithm bounds w n s results)
    (ht : R.Tells w R' w') : Steps R' algorithm bounds w' n s results := by
  induction h with
  | done s => exact .done s
  | step hs _ ih => exact .step (hs.told ht) ih

theorem Broken.told (h : Broken R algorithm bounds w n s) (ht : R.Tells w R' w') :
    Broken R' algorithm bounds w' n s := by
  induction h with
  | here hs => exact .here (hs.told ht)
  | next hs _ ih => exact .next (hs.told ht) ih

theorem Answered.told {c : PreparedCase} {r : TestResponse}
    (h : Answered R algorithm bounds w c r) (ht : R.Tells w R' w') :
    Answered R' algorithm bounds w' c r := by
  obtain ⟨rounds, hs, hr⟩ := h
  exact ⟨rounds, hs.told ht, hr⟩

end

/-! ## Chains -/

section

variable {κ : Type} {m : Type → Type} [Monad m] [HasRuns m W] {env : Setting κ m} {A : Account env}
  {subject : Subject m}

/-- Trying a round is asking for its answer, if it has a call. -/
theorem ends_attempt_iff {r : Except Fault State} :
    Ends (attempt subject algorithm bounds s) w r w' ↔
      (∃ f, arguments bounds s = .error f ∧ r = .error f ∧ w' = w) ∨
      ∃ args o, arguments bounds s = .ok args ∧ Run (subject (call algorithm args)) w o w' ∧
        r = stateOf (call algorithm args) o := by
  unfold attempt
  rw [ends_liftExcept_bind]
  refine or_congr_right (exists_congr fun args => ?_)
  rw [exists_and_left, and_congr_right_iff]
  intro _
  rw [ends_bind]
  constructor
  · rintro (⟨f, hask, rfl⟩ | ⟨results, v, hask, hnext⟩)
    · obtain ⟨o, ho, hs⟩ := run_ask.1 hask
      exact ⟨o, ho, by unfold stateOf; rw [← show _ = (call algorithm args).settle o from hs]; rfl⟩
    · obtain ⟨o, ho, hs⟩ := run_ask.1 hask
      obtain ⟨rfl, rfl⟩ := ends_liftExcept.1 hnext
      exact ⟨o, ho, by unfold stateOf; rw [← show _ = (call algorithm args).settle o from hs]; rfl⟩
  · rintro ⟨o, ho, rfl⟩
    unfold stateOf
    cases hs : (call algorithm args).settle o with
    | error f => exact .inl ⟨f, run_ask.2 ⟨o, ho, hs.symm⟩, rfl⟩
    | ok results => exact .inr ⟨results, w', run_ask.2 ⟨o, ho, hs.symm⟩, ends_liftExcept.2 ⟨rfl, rfl⟩⟩

/-- Trying a round is a step, or the state is stuck. -/
theorem ends_attempt {r : Except Fault State} (hw : A.Sound w)
    (h : Ends (attempt env.subject algorithm bounds s) w r w') :
    A.Later w w' ∧ Verdict (Step A.toRecords algorithm bounds w' s)
      (Stuck A.toRecords algorithm bounds w' s) r := by
  unfold attempt at h
  rcases ends_liftExcept_bind.1 h with ⟨f, hf, rfl, rfl⟩ | ⟨args, ha, hrest⟩
  · exact ⟨Records.Later.refl hw, Or.inl ⟨f, hf⟩⟩
  rcases ends_bind.1 hrest with ⟨f, hask, rfl⟩ | ⟨results, v, hask, hnext⟩
  · obtain ⟨hl, o, hg, hs⟩ := Account.ask_later hw hask
    refine ⟨hl, Or.inr ⟨args, o, f, ha, hg, ?_⟩⟩
    show (call algorithm args).settle o >>= nextState = _
    rw [show (call algorithm args).settle o = .error f from hs.symm]
    rfl
  · obtain ⟨hl, o, hg, hs⟩ := Account.ask_later hw hask
    obtain ⟨rfl, rfl⟩ := ends_liftExcept.1 hnext
    have hstate : stateOf (call algorithm args) o = nextState results := by
      show (call algorithm args).settle o >>= nextState = _
      rw [show (call algorithm args).settle o = .ok results from hs.symm]
      rfl
    refine ⟨hl, ?_⟩
    cases hn : nextState results with
    | ok next => exact ⟨args, o, ha, hg, hstate.trans hn⟩
    | error f => exact Or.inr ⟨args, o, f, ha, hg, hstate.trans hn⟩

variable [LawfulMonad m]

/-- A round is tried, and a state that comes of it is reported. -/
theorem ends_round_iff {r : Except Fault (State × RoundResult)} :
    Ends (round subject algorithm bounds s) w r w' ↔
      ∃ q, Ends (attempt subject algorithm bounds s) w q w' ∧
        r = (q.mapError (roundFault algorithm)).map fun next => (next, next.result) := by
  unfold round
  rw [ends_bind]
  constructor
  · rintro (⟨f, ha, rfl⟩ | ⟨next, v, ha, hp⟩)
    · obtain ⟨q, hq, he⟩ := ends_adapt.1 ha
      exact ⟨q, hq, by rw [← he]; rfl⟩
    · obtain ⟨rfl, rfl⟩ := ends_pure.1 hp
      obtain ⟨q, hq, he⟩ := ends_adapt.1 ha
      exact ⟨q, hq, by rw [← he]; rfl⟩
  · rintro ⟨q, hq, rfl⟩
    cases q with
    | error f => exact .inl ⟨_, ends_adapt.2 ⟨_, hq, rfl⟩, rfl⟩
    | ok next => exact .inr ⟨next, w', ends_adapt.2 ⟨_, hq, rfl⟩, ends_pure.2 ⟨rfl, rfl⟩⟩

theorem ends_round {r : Except Fault (State × RoundResult)} (hw : A.Sound w)
    (h : Ends (round env.subject algorithm bounds s) w r w') :
    A.Later w w' ∧
      Verdict (fun a => Step A.toRecords algorithm bounds w' s a.1 ∧ a.2 = a.1.result)
        (Stuck A.toRecords algorithm bounds w' s) r := by
  obtain ⟨q, hq, rfl⟩ := ends_round_iff.1 h
  obtain ⟨hl, hs⟩ := ends_attempt hw hq
  refine ⟨hl, ?_⟩
  cases q with
  | ok next => exact ⟨hs, rfl⟩
  | error f => exact hs

/-- Running a chain takes its steps, or gets to a state that is stuck. -/
theorem ends_chain {r : Except Fault (List RoundResult)} (hw : A.Sound w)
    (h : Ends (chain env.subject algorithm bounds n s) w r w') :
    A.Later w w' ∧ Verdict (Steps A.toRecords algorithm bounds w' n s)
      (Broken A.toRecords algorithm bounds w' n s) r := by
  induction n generalizing s w r with
  | zero =>
    obtain ⟨rfl, rfl⟩ := ends_pure.1 h
    exact ⟨Records.Later.refl hw, Steps.done s⟩
  | succ n ih =>
    unfold chain at h
    rcases ends_bind.1 h with ⟨f, hr, rfl⟩ | ⟨⟨next, result⟩, v, hr, hrest⟩
    · obtain ⟨hl, hs⟩ := ends_round hw hr
      exact ⟨hl, Broken.here hs⟩
    obtain ⟨hl, hs, hresult⟩ := ends_round hw hr
    have he : result = next.result := hresult
    subst he
    rcases ends_bind.1 hrest with ⟨f, hc, rfl⟩ | ⟨results, v', hc, hp⟩
    · obtain ⟨hl', hb⟩ := ih hl.sound hc
      exact ⟨hl.trans hl', Broken.next (hs.told hl'.tells) hb⟩
    · obtain ⟨rfl, rfl⟩ := ends_pure.1 hp
      obtain ⟨hl', hsteps⟩ := ih hl.sound hc
      exact ⟨hl.trans hl', Steps.step (hs.told hl'.tells) hsteps⟩

theorem ends_runCase {c : PreparedCase} {r : Except Fault TestResponse} (hw : A.Sound w)
    (h : Ends (runCase env.subject algorithm bounds c) w r w') :
    A.Later w w' ∧ Verdict (Answered A.toRecords algorithm bounds w' c)
      (Failed A.toRecords algorithm bounds w' c) r := by
  unfold runCase at h
  rcases ends_bind.1 h with ⟨f, hc, rfl⟩ | ⟨results, v, hc, hp⟩
  · exact ends_chain hw hc
  · obtain ⟨rfl, rfl⟩ := ends_pure.1 hp
    obtain ⟨hl, hs⟩ := ends_chain hw hc
    exact ⟨hl, results, hs, rfl⟩

end

/-! ## Groups -/

section

variable {ε : Type} {m : Type → Type} [Monad m] [LawfulMonad m] [HasRuns m W]
  {env : Setting (Desk ε) m} {A : Account env} {p p' : Pool (Desk ε)} {group : Nat}

/-- Filling the slots of a group begins with a case that fails, or that fills the first slot. -/
theorem ends_fillFrom_cons {c : PreparedCase} {rest : List PreparedCase} {q : Except Fault Unit}
    {g : OpenGroup} (hg : p.client.groups[group]? = some g) (hn : n < g.slots.length)
    (h : Ends (fillFrom env algorithm bounds group n (c :: rest)) (p, w) q (p', w')) :
    (∃ f, Ends (runCase env.subject algorithm bounds c) w (.error f) w' ∧ p' = p ∧ q = .error f) ∨
      ∃ r w₁, Ends (runCase env.subject algorithm bounds c) w (.ok r) w₁ ∧
        Ends (fillFrom env algorithm bounds group (n + 1) rest)
          ({ p with client := { p.client with
            groups := p.client.groups.set group { g with slots := g.slots.set n (some r) } } }, w₁)
          q (p', w') := by
  unfold fillFrom at h
  rcases ends_bind.1 h with ⟨f, hcase, rfl⟩ | ⟨r, ⟨p₁, w₁⟩, hcase, hdo⟩
  · obtain ⟨hrun, rfl⟩ := ends_fallible.1 hcase
    exact Or.inl ⟨f, hrun, rfl, rfl⟩
  obtain ⟨hrun, rfl⟩ := ends_fallible.1 hcase
  rcases ends_bind.1 hdo with ⟨f, hfill, -⟩ | ⟨⟨⟩, ⟨p₂, w₂⟩, hfill, hrest⟩
  · cases ((Desk.ends_fillNow hg hn).1 hfill).1
  obtain ⟨-, rfl, rfl⟩ := (Desk.ends_fillNow hg hn).1 hfill
  exact Or.inr ⟨r, w₂, hrun, hrest⟩

/-- Filling the slots of a group from a position on fills them all, or a case fails. Neither does
anything to the pool. -/
theorem ends_fillFrom {before rest : List PreparedCase} {responses : List TestResponse}
    {tgId : Number} {q : Except Fault Unit} (hn : before.length = n)
    (hbefore : List.Forall₂ (Answered A.toRecords algorithm bounds w) before responses)
    (hopen : p.client.groups[group]? =
      some { tgId, slots := responses.map some ++ List.replicate rest.length none })
    (hw : A.Sound w) (h : Ends (fillFrom env algorithm bounds group n rest) (p, w) q (p', w')) :
    A.Later w w' ∧ p'.waiting = p.waiting ∧ p'.error = p.error ∧ p'.submitted = p.submitted ∧
      Verdict (fun _ => ∃ all, p'.client.groups[group]? = some { tgId, slots := all.map some } ∧
          List.Forall₂ (Answered A.toRecords algorithm bounds w') (before ++ rest) all)
        (∃ c ∈ rest, Failed A.toRecords algorithm bounds w' c) q := by
  induction rest generalizing before responses n p w with
  | nil =>
    obtain ⟨rfl, he⟩ := ends_pure.1 h
    cases he
    rw [List.length_nil, List.replicate_zero, List.append_nil] at hopen
    rw [List.append_nil]
    exact ⟨Records.Later.refl hw, rfl, rfl, rfl, responses, hopen, hbefore⟩
  | cons c rest ih =>
    have hlen : responses.length = n := by rw [← hn, hbefore.length_eq]
    have hlt : n < (responses.map some ++
        List.replicate (c :: rest).length none).length := by
      rw [List.length_append, List.length_map, List.length_replicate, List.length_cons, hlen]
      omega
    rcases ends_fillFrom_cons hopen hlt h with ⟨f, hcase, rfl, rfl⟩ | ⟨r, w₁, hcase, hrest⟩
    · obtain ⟨hl, hf⟩ := ends_runCase hw hcase
      exact ⟨hl, rfl, rfl, rfl, c, List.mem_cons_self, hf⟩
    obtain ⟨hl, hans⟩ := ends_runCase hw hcase
    have hn' : (before ++ [c]).length = n + 1 := by
      rw [List.length_append, hn]
      rfl
    have hbefore' : List.Forall₂ (Answered A.toRecords algorithm bounds w₁) (before ++ [c])
        (responses ++ [r]) :=
      List.rel_append (hbefore.imp fun _ _ ha => ha.told hl.tells) (.cons hans .nil)
    have hopen' : (p.client.groups.set group
          { tgId, slots := (responses ++ [r]).map some ++ List.replicate rest.length none })[group]? =
        some { tgId, slots := (responses ++ [r]).map some ++ List.replicate rest.length none } :=
      Desk.getElem?_set_group hopen
    rw [← hlen, List.length_cons, OpenGroup.set_next_slot, hlen] at hrest
    obtain ⟨hl', hwait, herr, hsub, hv⟩ := ih hn' hbefore' hopen' hl.sound hrest
    refine ⟨hl.trans hl', hwait, herr, hsub, ?_⟩
    cases q with
    | ok u =>
      obtain ⟨all, hall, hf⟩ := hv
      rw [List.append_assoc] at hf
      exact ⟨all, hall, hf⟩
    | error f =>
      obtain ⟨c', hc', hf⟩ := hv
      exact ⟨c', List.mem_cons_of_mem _ hc', hf⟩

/-- A group whose slots are all filled, with nothing handed to the pool, is closed as it stands. -/
theorem close {responses : List TestResponse} {tgId : Number} {q : Except Fault GroupResponse}
    (hf : env.schedule.Faithful) (hp : p.IsIdle)
    (hopen : p.client.groups[group]? = some { tgId, slots := responses.map some })
    (h : Ends (Desk.closeGroup env group) (p, w) q (p', w')) :
    q = .ok { tgId, tests := responses } ∧ p' = p ∧ w' = w := by
  obtain ⟨p₁, w₁, hs, hrest⟩ := ends_checkpoint.1 h
  obtain ⟨rfl, rfl⟩ := settle_of_idle hf hp hs
  rcases hrest with ⟨f, he, -⟩ | ⟨-, hcol⟩
  · rw [hp.2] at he
    cases he
  obtain ⟨rfl, rfl, ⟨-, rfl⟩ | ⟨hm, -⟩⟩ := (Desk.ends_collect hopen).1 hcol
  · refine ⟨?_, rfl, rfl⟩
    simp [OpenGroup.snapshot, OpenGroup.answers]
  · refine absurd ((OpenGroup.missing_eq_nil_iff _).2 fun s hs => ?_) hm
    obtain ⟨r, -, rfl⟩ := List.mem_map.1 hs
    rfl

end

end XofConformance.MonteCarlo
