import XofConformance.Proofs.Exchange.Log
import XofConformance.Proofs.Run.Drained
import XofConformance.Proofs.Run.Reference

/-!
# The calls of a run

A run makes its calls group by group: all calls of a group are answered before the first call of the
next group is made. A functional group makes one call for each case, in any order, and makes them
all even if some fail. A Monte Carlo group makes the calls of one chain after those of another, and
each round's call after that of the round before. A group that fails is the last to make calls, and
in a Monte Carlo group so is a round.

    Ends (s.run env.logged algorithm) (p, (before, w)) q (p', (after, w')) →
      the log between is made of the blocks of the groups, in turn       (calls_in_turn)
-/

namespace XofConformance

/-! ## Blocks -/

/-- The events of several items: those of each item in turn, up to the first one that fails. -/
inductive InTurn {α : Type} (Block : α → Bool → Log → Prop) : List α → Bool → Log → Prop
  | done : InTurn Block [] true []
  | next {a : α} {rest : List α} {ok : Bool} {l l' : Log} :
    Block a true l → InTurn Block rest ok l' → InTurn Block (a :: rest) ok (l ++ l')
  | stop {a : α} {rest : List α} {l : Log} :
    Block a false l → InTurn Block (a :: rest) false l

/-- The events of a functional group: the call of every case, in any order, also when some fail. -/
structure Functional.Block (algorithm : Text) (cases : List PreparedCase) (ok : Bool) (l : Log) :
    Prop where
  serves : ∃ cs, calls algorithm cases = .ok cs ∧ l.Serves cs
  outcome : ok = true ↔ l.Succeeds

/-- The events of a number of rounds: the call of each state in turn, up to the first answer that is
no state. -/
inductive MonteCarlo.Rounds (algorithm : Text) (bounds : Bounds) : Nat → State → Bool → Log → Prop
  | done {s : State} : Rounds algorithm bounds 0 s true []
  | next {n : Nat} {s next : State} {args : List Bytes} {o : Outcome} {ok : Bool} {l : Log} :
    arguments bounds s = .ok args → stateOf (call algorithm args) o = .ok next →
    Rounds algorithm bounds n next ok l →
    Rounds algorithm bounds (n + 1) s ok
      ([.start (call algorithm args), .finish (call algorithm args) o] ++ l)
  | stop {n : Nat} {s : State} {args : List Bytes} {o : Outcome} {f : Fault} :
    arguments bounds s = .ok args → stateOf (call algorithm args) o = .error f →
    Rounds algorithm bounds (n + 1) s false
      [.start (call algorithm args), .finish (call algorithm args) o]

/-- The events of a chain of rounds. -/
def MonteCarlo.Block (algorithm : Text) (bounds : Bounds) (c : PreparedCase) : Bool → Log → Prop :=
  Rounds algorithm bounds roundCount (start bounds c)

/-- The events of a group. -/
def PreparedGroup.Block (algorithm : Text) (g : PreparedGroup) (ok : Bool) (l : Log) : Prop :=
  match g.testType with
  | .functional => Functional.Block algorithm g.cases ok l
  | .monteCarlo => InTurn (MonteCarlo.Block algorithm g.bounds) g.cases ok l

variable {ε : Type} {m : Type → Type} [Monad m] [LawfulMonad m] {W : Type} [HasRuns m W]
  {env : Setting (Desk ε) m} {p p' : Pool (Desk ε)} {w w' : W} {before after : Log}
  {algorithm : Text}

/-! ## Functional groups -/

namespace Functional

theorem calls_of_words {cases : List PreparedCase} (h : ∀ c ∈ cases, c.outLen.IsWord) :
    ∃ cs, calls algorithm cases = .ok cs := by
  induction cases with
  | nil => exact ⟨[], rfl⟩
  | cons c rest ih =>
    obtain ⟨cs, hcs⟩ := ih fun c' hc' => h c' (List.mem_cons_of_mem _ hc')
    refine ⟨call algorithm (Reference.arguments c) :: cs, ?_⟩
    rw [calls_cons, Reference.arguments_eq (h c List.mem_cons_self), hcs]
    rfl

/-- Whoever takes the turns, a functional group makes the call of every case. -/
theorem ends_group_logged {g : PreparedGroup} {q : Except Fault GroupResponse}
    (hf : env.schedule.Faithful) (hlost : ∀ n, env.schedule.lost n = false)
    (hg : ∀ c ∈ g.cases, c.outLen.IsWord) (hp : p.IsIdle)
    (h : Ends (do
        submit env.logged algorithm g.cases p.client.groups.length
        Desk.closeGroup env.logged p.client.groups.length)
      (Desk.opened g.tgId g.cases.length p, (before, w)) q (p', (after, w'))) :
    p'.waiting = [] ∧ ∃ l, after = before ++ l ∧ Block algorithm g.cases q.toBool l := by
  obtain ⟨cs, hcs⟩ : ∃ cs, calls algorithm g.cases = .ok cs := calls_of_words hg
  have hlost' : ∀ n, env.logged.schedule.lost n = false := hlost
  have hverdict := PreparedGroup.ends_functional (A := Account.logged env before) hf hp.1 hp.2
    ⟨[], (List.append_nil _).symm⟩ h
  rcases ends_bind.1 h with ⟨f, hsub, -⟩ | ⟨⟨⟩, ⟨p₁, v⟩, hsub, hclose⟩
  · have hcalls := submit_calls hlost' hp.1 hsub
    rw [hcs] at hcalls
    cases hcalls.1
  have hcalls := submit_calls hlost' hp.1 hsub
  rw [hcs] at hcalls
  obtain ⟨rfl, -, -, k, hh, -⟩ := submit_handed hp.1 hsub
  have hqueued : ∀ job ∈ p₁.waiting, job.progress = .queued := by
    intro job hj
    obtain ⟨i, -, hq, -⟩ := hh.jobs job hj
    exact hq
  obtain ⟨p₂, ⟨middle, w₂⟩, hs, hrest⟩ := ends_checkpoint.1 hclose
  obtain ⟨l, rfl, hserves, hsucceeds⟩ := settle_serves hf hqueued hcalls.2 hs
  have hend : p'.waiting = [] ∧ after = before ++ l ∧ (q.toBool = true → p₂.error = none) := by
    rcases hrest with ⟨f, -, rfl, rfl, he⟩ | ⟨hnone, hcollect⟩
    · cases he
      exact ⟨settle_waiting hs, rfl, nofun⟩
    · obtain ⟨rfl, he⟩ := Desk.collect_leaves hcollect
      cases he
      exact ⟨settle_waiting hs, rfl, fun _ => hnone⟩
  obtain ⟨hwait, rfl, herror⟩ := hend
  refine ⟨hwait, l, rfl, ⟨cs, hcs, hserves⟩, fun hq => hsucceeds (herror hq), fun hall => ?_⟩
  cases q with
  | ok r => rfl
  | error f =>
    exfalso
    obtain ⟨-, -, -, ⟨c, hc, hfail⟩ | ⟨n, -, -, hn⟩⟩ := hverdict
    · rcases hfail with ⟨e, he⟩ | ⟨args, o, e, -, ⟨l', hl', hm⟩, hsettle⟩
      · rw [Reference.arguments_eq (hg c hc)] at he
        cases he
      · rw [← List.append_cancel_left hl'] at hm
        obtain ⟨results, hok⟩ := hall _ _ hm
        rw [hok] at hsettle
        cases hsettle
    · rw [hlost' n] at hn
      cases hn

end Functional

/-! ## Monte Carlo groups -/

namespace MonteCarlo

variable {bounds : Bounds} {n : Nat} {s : State}

omit [LawfulMonad m] in
/-- Trying a round makes one call, and comes to what its answer is as a state. -/
theorem ends_attempt_logged {args : List Bytes} {r : Except Fault State}
    (ha : arguments bounds s = .ok args)
    (h : Ends (attempt env.logged.subject algorithm bounds s) (before, w) r (after, w')) :
    ∃ o, after = before ++ [.start (call algorithm args), .finish (call algorithm args) o] ∧
      r = stateOf (call algorithm args) o := by
  rcases ends_attempt_iff.1 h with ⟨f, hf, -⟩ | ⟨args', o, ha', ho, rfl⟩
  · rw [ha] at hf
    cases hf
  · rw [ha] at ha'
    cases ha'
    obtain ⟨-, rfl⟩ := run_logged_subject.1 ho
    exact ⟨o, rfl, rfl⟩

/-- A chain makes the calls of its rounds. -/
theorem ends_chain_logged {r : Except Fault (List RoundResult)} (hb : Reference.Words bounds)
    (hs : s.outLenBits.IsWord)
    (h : Ends (chain env.logged.subject algorithm bounds n s) (before, w) r (after, w')) :
    ∃ l, after = before ++ l ∧ Rounds algorithm bounds n s r.toBool l := by
  induction n generalizing s r before w with
  | zero =>
    obtain ⟨rfl, he⟩ := ends_pure.1 h
    cases he
    exact ⟨[], (List.append_nil _).symm, .done⟩
  | succ n ih =>
    have hargs := Reference.roundArguments_eq hb hs
    unfold chain at h
    rcases ends_bind.1 h with ⟨f, hround, rfl⟩ | ⟨⟨next, result⟩, ⟨middle, w₁⟩, hround, hrest⟩
    · -- the round fails, and no other is tried
      rcases ends_bind.1 hround with ⟨f', ha, -⟩ | ⟨next, v, -, hp⟩
      · obtain ⟨q, hq, he⟩ := ends_adapt.1 ha
        obtain ⟨o, rfl, rfl⟩ := ends_attempt_logged hargs hq
        cases hstate : stateOf (call algorithm _) o with
        | ok next =>
          rw [hstate] at he
          cases he
        | error f'' => exact ⟨_, rfl, .stop hargs hstate⟩
      · cases (ends_pure.1 hp).1
    · rcases ends_bind.1 hround with ⟨f, -, he⟩ | ⟨next', v, ha, hp⟩
      · cases he
      obtain ⟨he, rfl⟩ := ends_pure.1 hp
      cases he
      obtain ⟨q, hq, he⟩ := ends_adapt.1 ha
      obtain ⟨o, rfl, rfl⟩ := ends_attempt_logged hargs hq
      cases hstate : stateOf (call algorithm _) o with
      | error f =>
        rw [hstate] at he
        cases he
      | ok next' =>
        rw [hstate] at he
        cases he
        obtain ⟨msg, outLen, customization, -, hlen, rfl⟩ := stateOf_eq_ok_iff.1 hstate
        have hword := Reference.isWord_ofWord hlen
        rcases ends_bind.1 hrest with ⟨f, hchain, rfl⟩ | ⟨results, ⟨last, w₂⟩, hchain, hp⟩
        · obtain ⟨l, rfl, hl⟩ := ih hword hchain
          exact ⟨_, List.append_assoc .., .next hargs hstate hl⟩
        · obtain ⟨rfl, he⟩ := ends_pure.1 hp
          cases he
          obtain ⟨l, rfl, hl⟩ := ih hword hchain
          exact ⟨_, List.append_assoc .., .next hargs hstate hl⟩

theorem ends_runCase_logged {c : PreparedCase} {r : Except Fault TestResponse}
    (hb : Reference.Words bounds)
    (h : Ends (runCase env.logged.subject algorithm bounds c) (before, w) r (after, w')) :
    ∃ l, after = before ++ l ∧ Block algorithm bounds c r.toBool l := by
  unfold runCase at h
  rcases ends_bind.1 h with ⟨f, hchain, rfl⟩ | ⟨results, ⟨middle, w₁⟩, hchain, hp⟩
  · exact ends_chain_logged hb hb.maxOutLen hchain
  · obtain ⟨rfl, he⟩ := ends_pure.1 hp
    cases he
    exact ends_chain_logged hb hb.maxOutLen hchain

/-- Filling the slots of a group makes the calls of the chains in turn. -/
theorem fillFrom_logged {group index : Nat} {cases : List PreparedCase} {q : Except Fault Unit}
    (hb : Reference.Words bounds)
    (hopen : ∃ g, p.client.groups[group]? = some g ∧ index + cases.length ≤ g.slots.length)
    (h : Ends (fillFrom env.logged algorithm bounds group index cases) (p, (before, w)) q
      (p', (after, w'))) :
    ∃ l, after = before ++ l ∧ InTurn (Block algorithm bounds) cases q.toBool l := by
  induction cases generalizing index p before w with
  | nil =>
    obtain ⟨rfl, he⟩ := ends_pure.1 h
    cases he
    exact ⟨[], (List.append_nil _).symm, .done⟩
  | cons c rest ih =>
    obtain ⟨g, hg, hlength⟩ := hopen
    rw [List.length_cons] at hlength
    rcases ends_fillFrom_cons hg (by omega) h with
      ⟨f, hcase, -, rfl⟩ | ⟨r, ⟨middle, w₁⟩, hcase, hrest⟩
    · obtain ⟨l, rfl, hl⟩ := ends_runCase_logged hb hcase
      exact ⟨l, rfl, .stop hl⟩
    · obtain ⟨l, rfl, hl⟩ := ends_runCase_logged hb hcase
      obtain ⟨l', rfl, hl'⟩ := ih ⟨_, Desk.getElem?_set_group hg, by
        rw [List.length_set]
        omega⟩ hrest
      exact ⟨l ++ l', List.append_assoc .., .next hl hl'⟩

end MonteCarlo

/-! ## Groups -/

namespace PreparedGroup

/-- A group makes the calls of its block. -/
theorem run_logged {g : PreparedGroup} {q : Except Fault GroupResponse}
    (hf : env.schedule.Faithful) (hlost : ∀ n, env.schedule.lost n = false) (hg : g.HasWords)
    (hp : p.IsIdle)
    (h : Ends (g.run env.logged algorithm) (p, (before, w)) q (p', (after, w'))) :
    p'.waiting = [] ∧ ∃ l, after = before ++ l ∧ g.Block algorithm q.toBool l := by
  unfold run at h
  unfold Block
  rcases ends_bind.1 h with ⟨e, ho, -⟩ | ⟨group, ⟨p₁, v⟩, ho, hrest⟩
  · cases (Desk.ends_openGroup.1 ho).1
  obtain ⟨hgroup, rfl, rfl⟩ := Desk.ends_openGroup.1 ho
  cases hgroup
  cases ht : g.testType with
  | functional =>
    rw [ht] at hrest
    exact Functional.ends_group_logged hf hlost hg.outLen hp hrest
  | monteCarlo =>
    rw [ht] at hrest
    have hb : Reference.Words g.bounds := ⟨hg.minOutLen, hg.maxOutLen, hg.outLenIncrement⟩
    obtain ⟨-, hidle, -, hfill, -⟩ := ends_monteCarlo (A := Account.logged env before) hf hp
      ⟨[], (List.append_nil _).symm⟩ hrest
    obtain ⟨l, hl, hturn⟩ := MonteCarlo.fillFrom_logged hb Desk.exists_opened hfill
    refine ⟨hidle.1, l, hl, ?_⟩
    cases q <;> exact hturn

/-- Groups make the calls of their blocks in turn. -/
theorem runAll_logged {groups : List PreparedGroup} {q : Except Fault (List GroupResponse)}
    (hf : env.schedule.Faithful) (hlost : ∀ n, env.schedule.lost n = false)
    (hgs : ∀ g ∈ groups, g.HasWords) (hp : p.IsIdle)
    (h : Ends (runAll env.logged algorithm groups) (p, (before, w)) q (p', (after, w'))) :
    p'.waiting = [] ∧ ∃ l, after = before ++ l ∧ InTurn (Block algorithm) groups q.toBool l := by
  induction groups generalizing p before w q with
  | nil =>
    obtain ⟨rfl, he⟩ := ends_pure.1 h
    cases he
    exact ⟨hp.1, [], (List.append_nil _).symm, .done⟩
  | cons g rest ih =>
    have hhead := hgs g List.mem_cons_self
    have htail : ∀ g' ∈ rest, g'.HasWords := fun g' hg' => hgs g' (List.mem_cons_of_mem _ hg')
    rcases ends_runAll_cons h with ⟨f, hg, rfl⟩ | ⟨r, p₁, ⟨middle, w₁⟩, others, hg, hall, rfl⟩
    · obtain ⟨hwait, l, rfl, hl⟩ := run_logged hf hlost hhead hp hg
      exact ⟨hwait, l, rfl, .stop hl⟩
    · obtain ⟨-, l, rfl, hl⟩ := run_logged hf hlost hhead hp hg
      obtain ⟨-, -, -, hidle, -⟩ := ends_run (A := Account.logged env before) hf hp
        ⟨[], (List.append_nil _).symm⟩ hg
      obtain ⟨hwait, l', rfl, hl'⟩ := ih htail hidle hall
      refine ⟨hwait, l ++ l', List.append_assoc .., .next hl ?_⟩
      cases others <;> exact hl'

/-- Draining in the end makes no calls. -/
theorem runDrained_logged {groups : List PreparedGroup} {q : Except Fault (List GroupResponse)}
    (hf : env.schedule.Faithful) (hlost : ∀ n, env.schedule.lost n = false)
    (hgs : ∀ g ∈ groups, g.HasWords) (hp : p.IsIdle)
    (h : Ends (runDrained env.logged algorithm groups) (p, (before, w)) q (p', (after, w'))) :
    ∃ l, after = before ++ l ∧ InTurn (Block algorithm) groups q.toBool l := by
  obtain ⟨outcome, p₁, ⟨middle, w₁⟩, r, hall, hdrain, rfl⟩ := ends_runDrained_cases h
  obtain ⟨hwait, l, rfl, hl⟩ := runAll_logged hf hlost hgs hp hall
  have hf' : env.logged.schedule.Faithful := hf
  cases outcome with
  | error f =>
    cases drain_without_calls hf' hwait hdrain
    exact ⟨l, rfl, hl⟩
  | ok responses =>
    obtain ⟨-, -, -, -, hidle⟩ := ends_runAll (A := Account.logged env before) hf hp
      ⟨[], (List.append_nil _).symm⟩ hall
    obtain ⟨rfl, -, he⟩ := drain_of_idle hf' (hidle rfl) hdrain
    cases he
    exact ⟨l, rfl, hl⟩

end PreparedGroup

/-! ## Top theorem -/

/-- A run makes the calls of its groups in turn, whatever the subject does and whoever takes the
turns. A source that gives no groups makes none. -/
theorem Source.calls_in_turn {s : Source} {q : Except Fault (List GroupResponse)}
    (hf : env.schedule.Faithful) (hlost : ∀ n, env.schedule.lost n = false)
    (hwords : ∀ vs, s.read = .ok vs → vs.HasWords) (hp : p.IsIdle)
    (h : Ends (s.run env.logged algorithm) (p, (before, w)) q (p', (after, w'))) :
    ∃ l, after = before ++ l ∧
      match s.prepare with
      | .error f => q = .error f ∧ l = []
      | .ok groups => InTurn (PreparedGroup.Block algorithm) groups q.toBool l := by
  rcases ends_run.1 h with ⟨f, hprep, rfl, -, he⟩ | ⟨groups, hprep, hrun⟩
  · cases he
    rw [hprep]
    exact ⟨[], (List.append_nil _).symm, rfl, rfl⟩
  · have hgs : ∀ g ∈ groups, g.HasWords := by
      cases hread : s.read with
      | error f =>
        rw [prepare_of_read hread] at hprep
        cases hprep
      | ok vs =>
        rw [prepare_of_vectorSet hread] at hprep
        exact (hwords vs hread).prepared hprep
    rw [hprep]
    exact PreparedGroup.runDrained_logged hf hlost hgs hp hrun

/-- Two groups of functional tests. -/
def VectorSet.twoGroups : VectorSet :=
  { groups := VectorSet.twoTests.groups ++ [{ tgId := .int 2, testType := "AFT", tests := [
    { tcId := .int 1, msgHex := "02", bitLength := .int 8 }] }] }

theorem VectorSet.twoGroups_hasWords : VectorSet.twoGroups.HasWords := by
  have hword : ∀ n : Nat, n ≤ 32 → (Number.int n).IsWord := fun n hn =>
    ⟨n, by unfold Bytes.maxWord; omega, rfl⟩
  have htype : TestType.ofName? "AFT" ≠ some .monteCarlo := by decide
  intro g hg
  simp only [twoGroups, twoTests, List.cons_append, List.nil_append, List.mem_cons,
    List.not_mem_nil, or_false] at hg
  rcases hg with rfl | rfl <;> refine ⟨fun t ht => ?_, fun ht => absurd ht htype⟩
  · simp only [List.mem_cons, List.not_mem_nil, or_false] at ht
    rcases ht with rfl | rfl
    · exact hword 32 (Nat.le_refl _)
    · exact hword 0 (Nat.zero_le _)
  · simp only [List.mem_cons, List.not_mem_nil, or_false] at ht
    subst ht
    exact hword 0 (Nat.zero_le _)

/-- A subject that fails on one message. -/
def failsOnOne : Answering := fun _ args =>
  if args.head? = some [1] then .error (.subject (.told "down")) else .ok [args.headD []]

/-- The two groups are run, and the subject fails in the first of them. -/
def Source.runHalted : (Except Fault (List GroupResponse) × Pool (Desk Unit)) × Log :=
  Id.run ((((Source.vectorSet .twoGroups).run (Setting.stateless failsOnOne .alternating).logged
    "cSHAKE-128").run { client := { extra := () } }).run [])

/-- Both calls of the first group are made, and no call of the second. -/
theorem Source.runHalted_calls_in_turn :
    Source.runHalted.1.1.toBool = false ∧ Source.runHalted.2.length = 4 ∧
      ∃ groups, (Source.vectorSet .twoGroups).prepare = .ok groups ∧
        InTurn (PreparedGroup.Block "cSHAKE-128") groups false Source.runHalted.2 := by
  have hends : Ends ((Source.vectorSet .twoGroups).run
      (Setting.stateless failsOnOne .alternating).logged "cSHAKE-128")
      ({ client := { extra := () } }, ([], ())) Source.runHalted.1.1
      (Source.runHalted.1.2, (Source.runHalted.2, ())) := run_id_twice rfl
  have hfails : Source.runHalted.1.1.toBool = false := by decide +kernel
  have hwords : ∀ vs, (Source.vectorSet .twoGroups).read = .ok vs → vs.HasWords := by
    intro vs hvs
    cases hvs
    exact VectorSet.twoGroups_hasWords
  have hf : (Setting.stateless failsOnOne .alternating).schedule.Faithful := List.reverse_perm
  obtain ⟨l, hl, hturn⟩ :=
    Source.calls_in_turn hf (fun _ => rfl) hwords ⟨rfl, rfl⟩ hends
  obtain rfl : Source.runHalted.2 = l := hl
  have hprepare : (Source.vectorSet .twoGroups).prepare.toOption.isSome = true := by decide +kernel
  refine ⟨hfails, by decide +kernel, ?_⟩
  cases hprep : (Source.vectorSet .twoGroups).prepare with
  | error f =>
    rw [hprep] at hprepare
    cases hprepare
  | ok groups =>
    rw [hprep, hfails] at hturn
    exact ⟨groups, rfl, hturn⟩

end XofConformance
