import XofConformance.Proofs.Run.Barrier

/-!
# The chain of a case

What a chain that came to its end has said to the subject and heard from it, round by round. The
first call is made of the case and the bounds, every other one of the bounds and the three results
of the round before, byte for byte, and each round reports the first of its results. A case has no
other part in it than its message, and none at all in the chains of the other cases of its group.

    Ends (runCase env.logged.subject algorithm bounds c) (before, w) (.ok r) (after, w') →
      after = before ++ rounds.flatMap Round.events, r.rounds = rounds.map Round.result
                                                                              (runCase_linked)
-/

namespace XofConformance

/-- A number that is encoded as a word is one. -/
theorem Bytes.isWord_of_encodeWord {n : Number} {b : Bytes} (h : encodeWord n = .ok b) :
    n.IsWord := by
  unfold encodeWord at h
  split at h
  · next hle =>
    cases n with
    | int k =>
      rw [Bool.and_eq_true, Number.le_int, Number.le_int] at hle
      exact ⟨k.toNat, by omega, by rw [Int.toNat_of_nonneg hle.1]⟩
    | float x => cases h
  · cases h

namespace MonteCarlo

variable {algorithm : Text} {bounds : Bounds}

/-! ## Rounds -/

/-- The three results of a round. -/
structure Answer where
  msg : Bytes
  outLen : Bytes
  customization : Bytes

/-- A round as it went: what was asked, and what was answered. -/
structure Round where
  call : Call
  answer : Answer

namespace Round

/-- What the subject sees of a round. -/
def events (r : Round) : Log :=
  [.start r.call,
    .finish r.call (.ok [r.answer.msg, r.answer.outLen, r.answer.customization])]

/-- What a round reports: the digits of its first result, and the length of that in bits. -/
def result (r : Round) : RoundResult :=
  { md := r.answer.msg.toHex, outLen := .int (8 * r.answer.msg.length : Nat) }

end Round

/-- The call of a round that takes these three byte strings. -/
def callOn (algorithm : Text) (bounds : Bounds) (msg outLen customization : Bytes) : Call :=
  { op := algorithm ++ "/MCT", expected := 3,
    args := [msg, Bytes.toWord bounds.minOutLen.word, Bytes.toWord bounds.maxOutLen.word, outLen,
      Bytes.toWord bounds.outLenIncrement.word, customization] }

/-- The call of the round after one with these results. -/
def callAfter (algorithm : Text) (bounds : Bounds) (a : Answer) : Call :=
  callOn algorithm bounds a.msg a.outLen a.customization

/-- Rounds that begin with a call, each of the others asking what the results of the one before
make it ask. -/
inductive Follows (algorithm : Text) (bounds : Bounds) : Call → List Round → Prop
  | done {c : Call} : Follows algorithm bounds c []
  | next {c : Call} {a : Answer} {rest : List Round} : a.outLen.length = 4 →
    Follows algorithm bounds (callAfter algorithm bounds a) rest →
    Follows algorithm bounds c ({ call := c, answer := a } :: rest)

/-- The rounds of the chain of a case, each linked to the one before. -/
structure Linked (algorithm : Text) (bounds : Bounds) (c : PreparedCase) (rounds : List Round) :
    Prop where
  count : rounds.length = 100
  first {r : Round} : rounds[0]? = some r →
    r.call = callOn algorithm bounds c.msg (Bytes.toWord bounds.maxOutLen.word) []
  next {k : Nat} {r r' : Round} : rounds[k]? = some r → rounds[k + 1]? = some r' →
    r'.call = callOn algorithm bounds r.answer.msg r.answer.outLen r.answer.customization
  outLen : ∀ r ∈ rounds, r.answer.outLen.length = 4

namespace Follows

variable {c : Call} {rounds : List Round}

theorem first (h : Follows algorithm bounds c rounds) {r : Round} (hr : rounds[0]? = some r) :
    r.call = c := by
  cases h with
  | done => cases hr
  | next _ _ =>
    cases hr
    rfl

theorem next_call (h : Follows algorithm bounds c rounds) {k : Nat} {r r' : Round}
    (hr : rounds[k]? = some r) (hr' : rounds[k + 1]? = some r') :
    r'.call = callAfter algorithm bounds r.answer := by
  induction h generalizing k with
  | done => cases hr
  | next hlen hrest ih =>
    cases k with
    | zero =>
      cases hr
      exact hrest.first hr'
    | succ k => exact ih hr hr'

theorem outLen (h : Follows algorithm bounds c rounds) :
    ∀ r ∈ rounds, r.answer.outLen.length = 4 := by
  induction h with
  | done => exact nofun
  | next hlen _ ih => exact List.forall_mem_cons.2 ⟨hlen, ih⟩

end Follows

/-! ## Chains -/

/-- The arguments of a round can be built only from words. -/
theorem words_of_arguments {s : State} {args : List Bytes} (h : arguments bounds s = .ok args) :
    Reference.Words bounds ∧ s.outLenBits.IsWord := by
  unfold arguments at h
  obtain ⟨_, hmin, h⟩ := exists_of_bind_eq_ok h
  obtain ⟨_, hmax, h⟩ := exists_of_bind_eq_ok h
  obtain ⟨_, hlen, h⟩ := exists_of_bind_eq_ok h
  obtain ⟨_, hinc, -⟩ := exists_of_bind_eq_ok h
  exact ⟨⟨Bytes.isWord_of_encodeWord hmin, Bytes.isWord_of_encodeWord hmax,
    Bytes.isWord_of_encodeWord hinc⟩, Bytes.isWord_of_encodeWord hlen⟩

/-- The call of a state. -/
def callOf (algorithm : Text) (bounds : Bounds) (s : State) : Call :=
  callOn algorithm bounds s.msg (Bytes.toWord s.outLenBits.word) s.customization

theorem call_eq_callOf {s : State} {args : List Bytes} (h : arguments bounds s = .ok args) :
    call algorithm args = callOf algorithm bounds s := by
  obtain ⟨hb, hs⟩ := words_of_arguments h
  rw [Reference.roundArguments_eq hb hs] at h
  cases h
  rfl

/-- A state reports what the round that has led to it reports. -/
theorem result_eq {c : Call} {msg outLen customization : Bytes} {outLenBits : Number} :
    State.result { msg, outLenBits, customization } =
      Round.result { call := c, answer := { msg, outLen, customization } } := by
  show (⟨_, .int (msg.length * 8 : Nat)⟩ : RoundResult) = ⟨_, .int (8 * msg.length : Nat)⟩
  rw [Nat.mul_comm]

section

variable {ε : Type} {m : Type → Type} [Monad m] [LawfulMonad m] {W : Type} [HasRuns m W]
  {env : Setting (Desk ε) m} {w w' : W} {before after : Log} {n : Nat} {s : State}
  {c : PreparedCase}

/-- A round that succeeds leads to a state whose call repeats its results: a length that is read
from four bytes is spelled with the same four. -/
theorem ends_round_linked {next : State} {result : RoundResult}
    (h : Ends (round env.logged.subject algorithm bounds s) (before, w) (.ok (next, result))
      (after, w')) :
    ∃ a : Answer, let r : Round := { call := callOf algorithm bounds s, answer := a }
      after = before ++ r.events ∧ result = r.result ∧ a.outLen.length = 4 ∧
        callOf algorithm bounds next = callAfter algorithm bounds a ∧ Reference.Words bounds := by
  unfold round at h
  rcases ends_bind.1 h with ⟨f, -, he⟩ | ⟨next', v, ha, hp⟩
  · cases he
  obtain ⟨he, rfl⟩ := ends_pure.1 hp
  cases he
  obtain ⟨q, hq, he⟩ := ends_adapt.1 ha
  cases hargs : arguments bounds s with
  | error f =>
    -- a state without a call makes no state
    unfold attempt at hq
    rw [hargs] at hq
    rcases ends_liftExcept_bind.1 hq with ⟨_, _, rfl, -⟩ | ⟨_, hno, -⟩
    · cases he
    · cases hno
  | ok args =>
    obtain ⟨hb, hs⟩ := words_of_arguments hargs
    obtain ⟨o, rfl, rfl⟩ := ends_attempt_logged hargs hq
    have hstate : stateOf (call algorithm args) o = .ok next := by
      cases hst : stateOf (call algorithm args) o with
      | error f =>
        rw [hst] at he
        cases he
      | ok next' =>
        rw [hst] at he
        cases he
        rfl
    obtain ⟨msg, outLen, customization, rfl, hlen, rfl⟩ := stateOf_eq_ok_iff.1 hstate
    refine ⟨⟨msg, outLen, customization⟩, ?_, result_eq, hlen, ?_, hb⟩
    · rw [call_eq_callOf hargs]
      rfl
    · show callOn algorithm bounds msg (Bytes.toWord (Bytes.ofWord outLen)) customization = _
      rw [Bytes.toWord_ofWord hlen]
      rfl

/-- A chain that comes to its end is made of rounds that follow one another. -/
theorem ends_chain_linked {results : List RoundResult}
    (h : Ends (chain env.logged.subject algorithm bounds n s) (before, w) (.ok results)
      (after, w')) :
    ∃ rounds, Follows algorithm bounds (callOf algorithm bounds s) rounds ∧ rounds.length = n ∧
      after = before ++ rounds.flatMap Round.events ∧ results = rounds.map Round.result ∧
      (0 < n → Reference.Words bounds) := by
  induction n generalizing s results before w with
  | zero =>
    obtain ⟨hr, he⟩ := ends_pure.1 h
    cases hr
    cases he
    exact ⟨[], .done, rfl, (List.append_nil _).symm, rfl, fun hn => absurd hn (Nat.lt_irrefl 0)⟩
  | succ n ih =>
    unfold chain at h
    rcases ends_bind.1 h with ⟨f, -, he⟩ | ⟨⟨next, result⟩, ⟨middle, w₁⟩, hround, hrest⟩
    · cases he
    rcases ends_bind.1 hrest with ⟨f, -, he⟩ | ⟨others, ⟨last, w₂⟩, hchain, hp⟩
    · cases he
    obtain ⟨hr, he⟩ := ends_pure.1 hp
    cases hr
    cases he
    obtain ⟨a, rfl, rfl, hlen, hnext, hb⟩ := ends_round_linked hround
    obtain ⟨rounds, hfollows, hcount, rfl, rfl, -⟩ := ih hchain
    rw [hnext] at hfollows
    refine ⟨⟨_, a⟩ :: rounds, .next hlen hfollows, ?_, ?_, rfl, fun _ => hb⟩
    · rw [List.length_cons, hcount]
    · rw [List.flatMap_cons, List.append_assoc]

/-! ## Cases -/

/-- A case that comes to its end is made of a hundred linked rounds. -/
theorem ends_runCase_linked {r : TestResponse}
    (h : Ends (runCase env.logged.subject algorithm bounds c) (before, w) (.ok r) (after, w')) :
    Reference.Words bounds ∧ ∃ rounds, Linked algorithm bounds c rounds ∧
      after = before ++ rounds.flatMap Round.events ∧
      r = { tcId := c.tcId, rounds := rounds.map Round.result } := by
  unfold runCase at h
  rcases ends_bind.1 h with ⟨f, -, he⟩ | ⟨results, v, hchain, hp⟩
  · cases he
  obtain ⟨hr, rfl⟩ := ends_pure.1 hp
  cases hr
  obtain ⟨rounds, hfollows, hcount, hlog, rfl, hb⟩ := ends_chain_linked hchain
  exact ⟨hb (by decide), rounds,
    ⟨hcount, hfollows.first, hfollows.next_call, hfollows.outLen⟩, hlog, rfl⟩

omit [HasRuns m W] in
/-- Of a case, a chain takes the message; the identifier is written on the response. -/
theorem runCase_of_msg {subject : Subject m} {c' : PreparedCase} (h : c'.msg = c.msg) :
    runCase subject algorithm bounds c' =
      (fun r : TestResponse => { r with tcId := c'.tcId }) <$> runCase subject algorithm bounds c := by
  unfold runCase
  rw [h, map_bind]
  simp only [map_pure]

end

/-! ## Cases of a group -/

section

variable {ε : Type} {m : Type → Type} [Monad m] [LawfulMonad m] {W : Type} [HasRuns m W]
  {env : Setting (Desk ε) m} {p p' : Pool (Desk ε)} {w w' : W} {group n : Nat}

/-- Cases that are run one after the other, each alone with the subject as the one before has left
it, and what they come to. -/
inductive CaseByCase (subject : Subject m) (algorithm : Text) (bounds : Bounds) :
    List PreparedCase → W → List TestResponse → W → Prop
  | done {w : W} : CaseByCase subject algorithm bounds [] w [] w
  | next {c : PreparedCase} {r : TestResponse} {rest : List PreparedCase} {rs : List TestResponse}
    {w w₁ w' : W} : Ends (runCase subject algorithm bounds c) w (.ok r) w₁ →
    CaseByCase subject algorithm bounds rest w₁ rs w' →
    CaseByCase subject algorithm bounds (c :: rest) w (r :: rs) w'

/-- A group whose cases all come to their end holds what they come to one by one. -/
theorem fillFrom_caseByCase {rest : List PreparedCase} {responses : List TestResponse}
    {tgId : Number} (hn : responses.length = n)
    (hopen : p.client.groups[group]? =
      some { tgId, slots := responses.map some ++ List.replicate rest.length none })
    (h : Ends (fillFrom env algorithm bounds group n rest) (p, w) (.ok ()) (p', w')) :
    ∃ rs, CaseByCase env.subject algorithm bounds rest w rs w' ∧
      p'.client.groups[group]? = some { tgId, slots := (responses ++ rs).map some } := by
  induction rest generalizing responses n p w with
  | nil =>
    obtain ⟨-, he⟩ := ends_pure.1 h
    cases he
    rw [List.length_nil, List.replicate_zero, List.append_nil] at hopen
    exact ⟨[], .done, by rw [List.append_nil]; exact hopen⟩
  | cons c rest ih =>
    have hlt : n < (responses.map some ++ List.replicate (c :: rest).length none).length := by
      rw [List.length_append, List.length_map, List.length_replicate, List.length_cons, hn]
      omega
    rcases ends_fillFrom_cons hopen hlt h with ⟨f, -, -, he⟩ | ⟨r, w₁, hcase, hrest⟩
    · cases he
    rw [← hn, List.length_cons, OpenGroup.set_next_slot, hn] at hrest
    have hn' : (responses ++ [r]).length = n + 1 := by
      rw [List.length_append, hn]
      rfl
    obtain ⟨rs, hrs, hslots⟩ := ih hn' (Desk.getElem?_set_group hopen) hrest
    refine ⟨r :: rs, .next hcase hrs, ?_⟩
    rw [hslots, List.append_assoc]
    rfl

end

/-! ## Top theorem -/

section

variable {ε : Type} {m : Type → Type} [Monad m] [LawfulMonad m] {W : Type} [HasRuns m W]
  {env : Setting (Desk ε) m}

/-- A case that comes to its end has made a hundred calls, each round asking what the results of the
round before make it ask, and reports them. Of the case nothing but its message matters, and
beside other cases it does what it does alone with the subject. -/
theorem runCase_linked :
    (∀ {c : PreparedCase} {r : TestResponse} {before after : Log} {w w' : W},
      Ends (runCase env.logged.subject algorithm bounds c) (before, w) (.ok r) (after, w') →
      Reference.Words bounds ∧ ∃ rounds, Linked algorithm bounds c rounds ∧
        after = before ++ rounds.flatMap Round.events ∧
        r = { tcId := c.tcId, rounds := rounds.map Round.result }) ∧
    (∀ {c c' : PreparedCase}, c'.msg = c.msg → runCase env.subject algorithm bounds c' =
      (fun r : TestResponse => { r with tcId := c'.tcId }) <$>
        runCase env.subject algorithm bounds c) ∧
    ∀ {cases : List PreparedCase} {tgId : Number} {group : Nat} {p p' : Pool (Desk ε)} {w w' : W},
      p.client.groups[group]? = some (.empty tgId cases.length) →
      Ends (fillFrom env algorithm bounds group 0 cases) (p, w) (.ok ()) (p', w') →
      ∃ rs, CaseByCase env.subject algorithm bounds cases w rs w' ∧
        p'.client.groups[group]? = some { tgId, slots := rs.map some } :=
  ⟨ends_runCase_linked, runCase_of_msg,
    fun hopen h => fillFrom_caseByCase (show ([] : List TestResponse).length = 0 from rfl) hopen h⟩

end

/-- Each answer of this subject tells how many calls it had before. -/
def numbering : Setting (Desk Unit) (StateM Nat) :=
  { subject := fun _ n => (.ok [[UInt8.ofNat n], Bytes.toWord n, [0, UInt8.ofNat n]], n + 1) }

/-- Two cases with one message. -/
def twins : List PreparedCase :=
  [{ tcId := .int 1, msg := [7], functionName := [], customization := [], outLen := .int 0 },
    { tcId := .int 2, msg := [7], functionName := [1], customization := [2], outLen := .int 64 }]

/-- Bounds of a chain. -/
def narrow : Bounds :=
  { minOutLen := .int 16, maxOutLen := .int 64, outLenIncrement := .int 8 }

/-- The second of the cases, put to the subject after the first. -/
def runTwin : (Except Fault TestResponse × Log) × Nat :=
  Id.run (((runCase numbering.logged.subject "cSHAKE-128" narrow twins[1]).run []).run 100)

/-- Both cases in one group. -/
def runTwins : (Except Fault Unit × Pool (Desk Unit)) × Nat :=
  Id.run (((fillFrom numbering "cSHAKE-128" narrow 0 0 twins).run
    { client := { groups := [.empty (.int 1) 2], extra := () } }).run 0)

/-- The second case makes a hundred calls, it differs from the first in its name only, and in the
group it gets what it gets alone. -/
theorem runTwin_linked :
    runTwin.2 = 200 ∧
      (∃ r rounds, runTwin.1.1 = .ok r ∧ Linked "cSHAKE-128" narrow twins[1] rounds ∧
        runTwin.1.2 = rounds.flatMap Round.events ∧ r.rounds = rounds.map Round.result) ∧
      runCase numbering.subject "cSHAKE-128" narrow twins[1] =
        (fun r : TestResponse => { r with tcId := .int 2 }) <$>
          runCase numbering.subject "cSHAKE-128" narrow twins[0] ∧
      ∃ rs, CaseByCase numbering.subject "cSHAKE-128" narrow twins (0, ()) rs
          (runTwins.2, ()) ∧
        runTwins.1.2.client.groups[0]? = some { tgId := .int 1, slots := rs.map some } := by
  refine ⟨by decide +kernel, ?_, runCase_linked.2.1 rfl, ?_⟩
  · have hends : Ends (runCase numbering.logged.subject "cSHAKE-128" narrow twins[1])
        ([], (100, ())) runTwin.1.1 (runTwin.1.2, (runTwin.2, ())) := run_id_twice rfl
    have hok : runTwin.1.1.toBool = true := by decide +kernel
    cases hr : runTwin.1.1 with
    | error f =>
      rw [hr] at hok
      cases hok
    | ok r =>
      rw [hr] at hends
      obtain ⟨-, rounds, hlinked, hlog, rfl⟩ := runCase_linked.1 hends
      exact ⟨_, rounds, rfl, hlinked, hlog, rfl⟩
  · have hends : Ends (fillFrom numbering "cSHAKE-128" narrow 0 0 twins)
        ({ client := { groups := [.empty (.int 1) 2], extra := () } }, (0, ())) runTwins.1.1
        (runTwins.1.2, (runTwins.2, ())) := run_id_twice rfl
    have hok : runTwins.1.1.toBool = true := by decide +kernel
    cases hr : runTwins.1.1 with
    | error f =>
      rw [hr] at hok
      cases hok
    | ok r =>
      rw [hr] at hends
      exact runCase_linked.2.2 rfl hends

end MonteCarlo

end XofConformance
