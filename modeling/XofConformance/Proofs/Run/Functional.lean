import XofConformance.Proofs.Exchange.Account
import XofConformance.Proofs.Exchange.Desk
import XofConformance.Run.Functional

/-!
# Running a functional group

The calls of a group are handed over together and closed together. Whoever takes the turns, what
stands in a slot is an answer that the subject gave to the call of the case at that position, and
a call that has ended well has filled its slot. So the group is answered case by case, or a case
has failed, or a call was lost.

    a turn keeps what is known of every slot and every call              (Batch.turn_holds)
    a group is closed only with every case answered and no call lost     (Batch.close)
-/

namespace XofConformance.Functional

variable {ε : Type} {m : Type → Type} [Monad m] {W : Type} [HasRuns m W]
  {env : Setting (Desk ε) m} {A : Account env} {p p' : Pool (Desk ε)} {w w' : W}

/-! ## Cases -/

/-- The call that asks for the answer to a case. -/
def call (algorithm : Text) (args : List Bytes) : Call := { op := algorithm, expected := 1, args }

/-- The response tells an answer that the subject gave to the call of the case. -/
def Answered (R : Records W) (algorithm : Text) (w : W) (c : PreparedCase) (r : TestResponse) :
    Prop :=
  ∃ args results, arguments c = .ok args ∧ R.Given w (call algorithm args) (.ok results) ∧
    results.length = 1 ∧ r = response c results

/-- The case has no call, or the subject gave it an answer that is a failure. -/
def Failed (R : Records W) (algorithm : Text) (w : W) (c : PreparedCase) : Prop :=
  (∃ f, arguments c = .error f) ∨
    ∃ args o f, arguments c = .ok args ∧ R.Given w (call algorithm args) o ∧
      (call algorithm args).settle o = .error f

variable {R : Records W} {algorithm : Text} {c : PreparedCase} {r : TestResponse}

theorem Answered.told {W' : Type} {R' : Records W'} {w' : W'} (h : Answered R algorithm w c r)
    (ht : R.Tells w R' w') : Answered R' algorithm w' c r := by
  obtain ⟨args, results, ha, hg, hn, hr⟩ := h
  exact ⟨args, results, ha, ht.ok hg, hn, hr⟩

theorem Failed.told {W' : Type} {R' : Records W'} {w' : W'} (h : Failed R algorithm w c)
    (ht : R.Tells w R' w') : Failed R' algorithm w' c := by
  rcases h with h | ⟨args, o, f, ha, hg, hs⟩
  · exact Or.inl h
  · obtain ⟨o', hg', ho⟩ := ht hg
    obtain ⟨f', hs'⟩ := Call.settle_error_of_toOption ho hs
    exact Or.inr ⟨args, o', f', ha, hg', hs'⟩

/-! ## A group that is being run -/

/-- A functional group on its way: its number on the desk and the number of its first call. -/
structure Batch where
  algorithm : Text
  tgId : Number
  cases : List PreparedCase
  group : Nat
  base : Nat

namespace Batch

variable {b : Batch} {i n : Nat} {job : Job (Desk ε)} {g : OpenGroup}

/-- The job asks for the answer to the case at a position and puts it into the slot there. -/
def Asks (b : Batch) (i : Nat) (job : Job (Desk ε)) : Prop :=
  ∃ c args, b.cases[i]? = some c ∧ arguments c = .ok args ∧ job.number = b.base + i ∧
    job.call = call b.algorithm args ∧
    job.deliver = fun results desk => desk.fill b.group i (response c results)

/-- What is known of the answer and of the slot at a position by how far the job is. -/
def Reached (R : Records W) (w : W) (slots : List (Option TestResponse)) (i : Nat)
    (job : Job (Desk ε)) : Prop :=
  match job.progress with
  | .queued | .posted _ => True
  | .answered results => R.Given w job.call (.ok results) ∧ results.length = 1
  | .ended none => ∃ r, slots[i]? = some (some r)
  | .ended (some f) => ∃ o, R.Given w job.call o ∧ job.call.settle o = .error f

/-- What holds of a group on its way, and what every turn keeps. -/
structure Holds (b : Batch) (A : Account env) (g : OpenGroup) (p : Pool (Desk ε)) (w : W) :
    Prop where
  account : A.Holds p w
  open_ : p.client.groups[b.group]? = some g
  tgId : g.tgId = b.tgId
  length : g.slots.length = b.cases.length
  jobs : ∀ job ∈ p.waiting, ∃ i, b.Asks i job ∧ Reached A.toRecords w g.slots i job ∧
    env.schedule.lost (b.base + i) = false
  filled : ∀ {i : Nat} {r : TestResponse}, g.slots[i]? = some (some r) →
    (∃ c, b.cases[i]? = some c ∧ Answered A.toRecords b.algorithm w c r) ∧
      env.schedule.lost (b.base + i) = false

/-- What was reached stays reached in a later world, as long as no slot is emptied. -/
theorem Reached.later {slots slots' : List (Option TestResponse)} (h : Reached R w slots i job)
    (hl : R.Later w w')
    (hs : ∀ r, slots[i]? = some (some r) → ∃ r', slots'[i]? = some (some r')) :
    Reached R w' slots' i job := by
  unfold Reached at h ⊢
  split at h
  · trivial
  · trivial
  · exact ⟨hl.given h.1, h.2⟩
  · obtain ⟨r, hr⟩ := h
    exact hs r hr
  · obtain ⟨o, ho, hf⟩ := h
    exact ⟨o, hl.given ho, hf⟩

/-- A step of a job that asks for a case leaves the desk alone, or fills the slot of the case with
an answer to it. -/
theorem advance_reached {progress : Progress} {client : Desk ε} (h : b.Holds A g p w)
    (hjob : job ∈ p.waiting) (hasks : b.Asks i job) (hi : Reached A.toRecords w g.slots i job)
    (ha : Run (env.advance job p.client) w (progress, client) w') :
    (client = p.client ∧ Reached A.toRecords w' g.slots i { job with progress }) ∨
    ∃ c r, b.cases[i]? = some c ∧ Answered A.toRecords b.algorithm w' c r ∧
      client = { p.client with
        groups := p.client.groups.set b.group { g with slots := g.slots.set i (some r) } } ∧
      progress = .ended none := by
  obtain ⟨c, args, hc, hargs, hnum, hcall, hdel⟩ := hasks
  rcases advance_cases ha with ⟨-, rfl, t, -, rfl⟩ | ⟨t, o, hpt, rfl, ho, hr⟩ |
    ⟨results, hp, rfl, hr⟩ | ⟨f, hp, rfl, rfl, rfl⟩
  · exact Or.inl ⟨rfl, trivial⟩
  · -- the subject answers: the answer counts, or the call has failed
    obtain ⟨-, hgiven⟩ := A.answer h.account.sound (h.account.posted job hjob t hpt) ho
    refine Or.inl ⟨rfl, ?_⟩
    rcases hr with ⟨results, hs, rfl⟩ | ⟨f, hs, rfl⟩
    · obtain ⟨rfl, hn⟩ := Call.settle_eq_ok_iff.1 hs
      rw [hcall] at hn
      have hone : (results.length : Int) = 1 := hn
      exact ⟨hgiven, by omega⟩
    · exact ⟨o, hgiven, hs⟩
  · -- the answer is delivered, and there is a slot for it
    rw [Reached, hp] at hi
    obtain ⟨hgiven, hn⟩ := hi
    have hlt : i < g.slots.length := by
      rw [h.length]
      exact (List.getElem?_eq_some_iff.1 hc).1
    have hfill : job.deliver results p.client = p.client.fill b.group i (response c results) := by
      rw [hdel]
    rw [hfill, Desk.fill_eq h.open_ hlt] at hr
    rcases hr with ⟨hr, rfl⟩ | ⟨f, hr, -⟩
    · cases hr
      rw [hcall] at hgiven
      exact Or.inr ⟨c, _, hc, ⟨args, results, hargs, hgiven, hn, rfl⟩, rfl, rfl⟩
    · cases hr
  · exact Or.inl ⟨rfl, by rw [Reached, hp] at hi; exact hi⟩

/-- A turn keeps what is known of every slot and every call. -/
theorem turn_holds {position : Nat} (h : b.Holds A g p w)
    (ht : Run (env.turn position p) w p' w') : ∃ g', b.Holds A g' p' w' := by
  obtain ⟨hacc, hl⟩ := Account.turn_holds h.account ht
  rcases turn_cases ht with ⟨rfl, rfl, -⟩ | ⟨job, progress, client, hj, -, ha, rfl⟩
  · exact ⟨g, h⟩
  have hmem := List.mem_of_getElem? hj
  obtain ⟨i, hasks, hreached, hlost⟩ := h.jobs job hmem
  rcases advance_reached h hmem hasks hreached ha with ⟨rfl, hnew⟩ | ⟨c, r, hc, hans, rfl, rfl⟩
  · refine ⟨g, hacc, h.open_, h.tgId, h.length, fun job' hj' => ?_, fun hs => ?_⟩
    · rcases List.mem_or_eq_of_mem_set hj' with hm | rfl
      · obtain ⟨k, hk, hreach, hkl⟩ := h.jobs job' hm
        exact ⟨k, hk, hreach.later hl fun r hr => ⟨r, hr⟩, hkl⟩
      · exact ⟨i, hasks, hnew, hlost⟩
    · obtain ⟨⟨c, hc, hans⟩, hkl⟩ := h.filled hs
      exact ⟨⟨c, hc, hans.told hl.tells⟩, hkl⟩
  · have hlt : i < g.slots.length := by
      rw [h.length]
      exact (List.getElem?_eq_some_iff.1 hc).1
    refine ⟨{ g with slots := g.slots.set i (some r) }, hacc, Desk.getElem?_set_group h.open_,
      h.tgId, by rw [List.length_set, h.length], fun job' hj' => ?_, fun {k r'} hs => ?_⟩
    · rcases List.mem_or_eq_of_mem_set hj' with hm | rfl
      · obtain ⟨k, hk, hreach, hkl⟩ := h.jobs job' hm
        exact ⟨k, hk, hreach.later hl fun _ hr => OpenGroup.set_slot_filled hr, hkl⟩
      · exact ⟨i, hasks, ⟨r, List.getElem?_set_self hlt⟩, hlost⟩
    · rcases OpenGroup.getElem?_set_slot hs with ⟨rfl, rfl⟩ | hold
      · exact ⟨⟨c, hc, hans⟩, hlost⟩
      · obtain ⟨⟨c', hc', hans'⟩, hkl⟩ := h.filled hold
        exact ⟨⟨c', hc', hans'.told hl.tells⟩, hkl⟩

/-! ## Handing the calls over -/

/-- The calls of the first cases have been handed over, and nothing has been done with them. -/
structure Handed (b : Batch) (schedule : Schedule (Desk ε)) (n : Nat) (p : Pool (Desk ε)) :
    Prop where
  submitted : p.submitted = b.base + n
  jobs : ∀ job ∈ p.waiting, ∃ i, b.Asks i job ∧ job.progress = .queued ∧
    schedule.lost (b.base + i) = false
  asked : ∀ i < n, schedule.lost (b.base + i) = true ∨ ∃ job ∈ p.waiting, b.Asks i job

theorem accept_handed {schedule : Schedule (Desk ε)} {c : PreparedCase} {args : List Bytes}
    (h : b.Handed schedule n p) (hc : b.cases[n]? = some c) (ha : arguments c = .ok args) :
    b.Handed schedule (n + 1) (schedule.accept (call b.algorithm args)
      (fun results desk => desk.fill b.group n (response c results)) p) := by
  unfold Schedule.accept
  rw [h.submitted]
  cases hl : schedule.lost (b.base + n) with
  | true =>
    refine ⟨Nat.add_assoc .., h.jobs, fun i hi => ?_⟩
    rcases Nat.lt_succ_iff_lt_or_eq.1 hi with hlt | rfl
    · exact h.asked i hlt
    · exact Or.inl hl
  | false =>
    let job : Job (Desk ε) :=
      { number := b.base + n, call := call b.algorithm args
        deliver := fun results desk => desk.fill b.group n (response c results) }
    have hnew : b.Asks n job := ⟨c, args, hc, ha, rfl, rfl, rfl⟩
    refine ⟨Nat.add_assoc .., fun job hj => ?_, fun i hi => ?_⟩
    · rcases List.mem_append.1 hj with hj | hj
      · exact h.jobs job hj
      · rw [List.mem_singleton.1 hj]
        exact ⟨n, hnew, rfl, hl⟩
    · rcases Nat.lt_succ_iff_lt_or_eq.1 hi with hlt | rfl
      · rcases h.asked i hlt with hlost | ⟨job, hj, ha⟩
        · exact Or.inl hlost
        · exact Or.inr ⟨job, List.mem_append_left _ hj, ha⟩
      · exact Or.inr ⟨_, List.mem_append_right _ (List.mem_singleton.2 rfl), hnew⟩

/-- A group whose calls have been handed over is on its way. -/
theorem Handed.holds (h : b.Handed env.schedule n p) (hw : A.Sound w)
    (hopen : p.client.groups[b.group]? = some (.empty b.tgId b.cases.length)) :
    b.Holds A (.empty b.tgId b.cases.length) p w where
  account := ⟨hw, fun job hj t ht => by
    obtain ⟨i, -, hq, -⟩ := h.jobs job hj
    rw [hq] at ht
    cases ht⟩
  open_ := hopen
  tgId := rfl
  length := List.length_replicate
  jobs := fun job hj => by
    obtain ⟨i, hi, hq, hl⟩ := h.jobs job hj
    exact ⟨i, hi, by rw [Reached, hq]; trivial, hl⟩
  filled := fun {i r} hs => by
    have hr := List.mem_of_getElem? hs
    cases List.eq_of_mem_replicate hr

/-- After the calls of a group have been waited for, what is known of it holds still. -/
theorem settle_holds (hf : env.schedule.Faithful) (h : b.Holds A g p w)
    (hs : Run (env.settle p) w p' w') :
    ∃ g' q, b.Holds A g' q w' ∧ (∀ job ∈ q.waiting, job.hasEnded = true) ∧
      SameCalls { p with waiting := env.schedule.release p.waiting } q ∧ p' = q.joined := by
  obtain ⟨turns, q, hw, hend, rfl⟩ := run_settle hs
  have hstart : b.Holds A g { p with waiting := env.schedule.release p.waiting } w :=
    { h with
      account := ⟨h.account.sound, fun job hj => h.account.posted job ((hf _).mem_iff.1 hj)⟩
      jobs := fun job hj => h.jobs job ((hf _).mem_iff.1 hj) }
  obtain ⟨g', hg'⟩ := work_keeps (I := fun q v => ∃ g', b.Holds A g' q v)
    (fun ⟨_, hg⟩ ht => turn_holds hg ht) ⟨g, hstart⟩ hw
  exact ⟨g', q, hg', hend, work_sameCalls hw, rfl⟩

/-- A job that has ended with a fault asked for a case that has failed. -/
theorem Reached.failed {f : Fault} (h : Reached R w g.slots i job) (hasks : b.Asks i job)
    (hf : job.fault? = some f) : ∃ c ∈ b.cases, Failed R b.algorithm w c := by
  obtain ⟨c, args, hc, ha, -, hcall, -⟩ := hasks
  unfold Job.fault? at hf
  split at hf
  · next fault hp =>
    cases hf
    rw [Reached, hp] at h
    obtain ⟨o, ho, hs⟩ := h
    rw [hcall] at ho hs
    exact ⟨c, List.mem_of_getElem? hc, Or.inr ⟨args, o, f, ha, ho, hs⟩⟩
  · cases hf

/-- A job asks for one case only. -/
theorem Asks.unique {k : Nat} (hi : b.Asks i job) (hk : b.Asks k job) : k = i := by
  obtain ⟨-, -, -, -, hi, -⟩ := hi
  obtain ⟨-, -, -, -, hk, -⟩ := hk
  omega

/-- A job that has ended without a fault has filled the slot of its case. -/
theorem Reached.filled (h : Reached R w g.slots i job) (he : job.hasEnded = true)
    (hf : job.fault? = none) : ∃ r, g.slots[i]? = some (some r) := by
  obtain ⟨f, hp⟩ := Job.hasEnded_iff.1 he
  rw [Job.fault?, hp] at hf
  cases hf
  rw [Reached, hp] at h
  exact h

/-- When all calls that wait have ended without a fault, no call that waits has an empty slot. -/
theorem Holds.not_asks_of_empty (h : b.Holds A g p w)
    (hend : ∀ job ∈ p.waiting, job.hasEnded = true)
    (hnone : p.waiting.findSome? Job.fault? = none) (hi : g.slots[i]? = some none)
    (hj : job ∈ p.waiting) : ¬ b.Asks i job := by
  intro hasks
  obtain ⟨k, hk, hreach, -⟩ := h.jobs job hj
  obtain rfl := hasks.unique hk
  rw [List.findSome?_eq_none_iff] at hnone
  obtain ⟨r, hr⟩ := hreach.filled (hend job hj) (hnone job hj)
  rw [hi] at hr
  cases hr

variable [LawfulMonad m]

/-- Handing over the calls of a group hands over one for each case, or a case has no call. -/
theorem submitFrom_handed {before rest : List PreparedCase} {q : Except Fault Unit}
    (hcases : before ++ rest = b.cases) (hn : before.length = n) (h : b.Handed env.schedule n p)
    (hs : Ends (submitFrom env b.algorithm b.group n rest) (p, w) q (p', w')) :
    w' = w ∧ p'.client = p.client ∧ p'.error = p.error ∧ ∃ k, b.Handed env.schedule k p' ∧
      ((q = .ok () ∧ k = b.cases.length) ∨
        ∃ c ∈ b.cases, ∃ f, arguments c = .error f ∧ q = .error f) := by
  induction rest generalizing before n p with
  | nil =>
    obtain ⟨rfl, he⟩ := ends_pure.1 hs
    cases he
    rw [List.append_nil] at hcases
    exact ⟨rfl, rfl, rfl, n, h, Or.inl ⟨rfl, by rw [← hcases, hn]⟩⟩
  | cons c rest ih =>
    have hmem : c ∈ b.cases := by
      rw [← hcases]
      exact List.mem_append_right _ List.mem_cons_self
    have hc : b.cases[n]? = some c := by
      rw [← hcases, ← hn, List.getElem?_append_right (Nat.le_refl _), Nat.sub_self]
      rfl
    unfold submitFrom at hs
    rcases ends_liftExcept_bind.1 hs with ⟨f, hf, rfl, he⟩ | ⟨args, ha, hdo⟩
    · cases he
      exact ⟨rfl, rfl, rfl, n, h, Or.inr ⟨c, hmem, f, hf, rfl⟩⟩
    rcases ends_bind.1 hdo with ⟨f, hf, -⟩ | ⟨⟨⟩, ⟨p₁, w₁⟩, hsub, hrest⟩
    · cases (ends_submit.1 hf).1
    obtain ⟨-, rfl, rfl⟩ := ends_submit.1 hsub
    have hcases' : (before ++ [c]) ++ rest = b.cases := by
      rw [List.append_assoc]
      exact hcases
    have hn' : (before ++ [c]).length = n + 1 := by
      rw [List.length_append, hn]
      rfl
    obtain ⟨hw, hclient, herror, hk⟩ := ih hcases' hn' (accept_handed h hc ha) hrest
    exact ⟨hw, hclient, herror, hk⟩

/-! ## Closing -/

/-- A group is closed only when every case is answered, none of them by a lost call. -/
theorem close {q : Except Fault GroupResponse} (hf : env.schedule.Faithful)
    (h : b.Holds A g p w) (he : p.error = none) (hh : b.Handed env.schedule b.cases.length p)
    (hc : Ends (Desk.closeGroup env b.group) (p, w) q (p', w')) :
    A.Later w w' ∧ p'.waiting = [] ∧ p'.submitted = p.submitted ∧
    Verdict (fun response => p'.error = none ∧ response.tgId = b.tgId ∧
        List.Forall₂ (Answered A.toRecords b.algorithm w') b.cases response.tests ∧
        ∀ i < b.cases.length, env.schedule.lost (b.base + i) = false)
      ((∃ c ∈ b.cases, Failed A.toRecords b.algorithm w' c) ∨
        ∃ i < b.cases.length, env.schedule.lost (b.base + i) = true) q := by
  obtain ⟨p₁, w₁, hs, hrest⟩ := ends_checkpoint.1 hc
  have hl := Account.settle_later hf h.account hs
  obtain ⟨g', q', hg, hend, hsame, rfl⟩ := settle_holds hf h hs
  have herr : q'.joined.error = q'.waiting.findSome? Job.fault? := by
    show (q'.error <|> _) = _
    rw [hsame.error, show ({ p with waiting := env.schedule.release p.waiting } :
      Pool (Desk ε)).error = none from he]
    rfl
  rcases hrest with ⟨f, hfault, rfl, rfl, rfl⟩ | ⟨hnone, hcol⟩
  · refine ⟨hl, rfl, hsame.submitted, Or.inl ?_⟩
    rw [herr] at hfault
    obtain ⟨job, hj, hjf⟩ := List.exists_of_findSome?_eq_some hfault
    obtain ⟨i, hasks, hreach, -⟩ := hg.jobs job hj
    exact hreach.failed hasks hjf
  have hopen : q'.joined.client.groups[b.group]? = some g' := hg.open_
  obtain ⟨rfl, rfl, hres⟩ := (Desk.ends_collect hopen).1 hcol
  refine ⟨hl, rfl, hsame.submitted, ?_⟩
  rcases hres with ⟨hcomplete, rfl⟩ | ⟨hmissing, rfl⟩
  · refine ⟨hnone, hg.tgId, ?_, fun i hi => ?_⟩
    · exact OpenGroup.forall₂_answers hcomplete hg.length fun hr => (hg.filled hr).1
    · obtain ⟨r, hr⟩ := OpenGroup.exists_filled_slot hcomplete (hg.length.symm ▸ hi)
      exact (hg.filled hr).2
  · refine Or.inr ?_
    obtain ⟨i, hi⟩ := OpenGroup.exists_empty_slot hmissing
    have hlt : i < b.cases.length := by
      rw [← hg.length]
      exact (List.getElem?_eq_some_iff.1 hi).1
    -- a call that was not lost has waited, and then its slot is not empty
    refine ⟨i, hlt, (hh.asked i hlt).resolve_right fun ⟨job, hj, hasks⟩ => ?_⟩
    obtain ⟨job', hj', hasks'⟩ := hsame.exists_mem (Q := b.Asks i) (fun _ _ => Iff.rfl)
      ⟨job, (hf _).mem_iff.2 hj, hasks⟩
    rw [herr] at hnone
    exact hg.not_asks_of_empty hend hnone hi hj' hasks'

end Batch

/-! ## The calls of a group -/

/-- The calls of cases, unless one of them has none. -/
def calls (algorithm : Text) (cases : List PreparedCase) : Except Fault (List Call) :=
  cases.mapM fun c => return call algorithm (← arguments c)

theorem calls_cons {algorithm : Text} {c : PreparedCase} {rest : List PreparedCase} :
    calls algorithm (c :: rest) = (do
      let args ← arguments c
      return call algorithm args :: (← calls algorithm rest)) := by
  unfold calls
  rw [List.mapM_cons]
  cases arguments c <;> rfl

theorem mem_calls {algorithm : Text} {cases : List PreparedCase} {cs : List Call}
    (h : calls algorithm cases = .ok cs) {c : PreparedCase} (hc : c ∈ cases) :
    ∃ args, arguments c = .ok args ∧ call algorithm args ∈ cs := by
  induction cases generalizing cs with
  | nil => cases hc
  | cons c' rest ih =>
    rw [calls_cons] at h
    obtain ⟨args, ha, h⟩ := exists_of_bind_eq_ok h
    obtain ⟨cs', hcs, h⟩ := exists_of_bind_eq_ok h
    cases h
    rcases List.mem_cons.1 hc with rfl | hc
    · exact ⟨args, ha, List.mem_cons_self⟩
    · obtain ⟨args', ha', hm⟩ := ih hcs hc
      exact ⟨args', ha', List.mem_cons_of_mem _ hm⟩

variable [LawfulMonad m]

/-- Handing cases over hands over their calls in their order, if none is lost; it stops at the
first case that has no call. -/
theorem submitFrom_calls (hlost : ∀ n, env.schedule.lost n = false) {group index : Nat}
    {cases : List PreparedCase} {q : Except Fault Unit}
    (h : Ends (submitFrom env algorithm group index cases) (p, w) q (p', w')) :
    match calls algorithm cases with
    | .error e => q = .error e
    | .ok cs => q = .ok () ∧ p'.waiting.map Job.call = p.waiting.map Job.call ++ cs := by
  induction cases generalizing index p with
  | nil =>
    obtain ⟨rfl, he⟩ := ends_pure.1 h
    cases he
    exact ⟨rfl, (List.append_nil _).symm⟩
  | cons c rest ih =>
    rw [calls_cons]
    unfold submitFrom at h
    rcases ends_liftExcept_bind.1 h with ⟨e, ha, rfl, -⟩ | ⟨args, ha, hdo⟩
    · rw [ha]
      rfl
    rcases ends_bind.1 hdo with ⟨e, hsub, -⟩ | ⟨⟨⟩, ⟨p₁, w₁⟩, hsub, hrest⟩
    · cases (ends_submit.1 hsub).1
    obtain ⟨-, rfl, rfl⟩ := ends_submit.1 hsub
    have hrest' := ih hrest
    rw [ha]
    cases hcs : calls algorithm rest with
    | error e =>
      rw [hcs] at hrest'
      exact hrest'
    | ok cs =>
      rw [hcs] at hrest'
      obtain ⟨hq, hwaiting⟩ := hrest'
      refine ⟨hq, hwaiting.trans ?_⟩
      unfold Schedule.accept
      simp only [hlost, Bool.false_eq_true, if_false, List.map_append, List.append_assoc]
      rfl

/-- A functional group that is opened on a pool. -/
def Batch.ofGroup (algorithm : Text) (g : PreparedGroup) (p : Pool (Desk ε)) : Batch :=
  { algorithm, tgId := g.tgId, cases := g.cases, group := p.client.groups.length,
    base := p.submitted }

/-! ## A group that is opened on a pool without calls -/

section

variable {g : PreparedGroup} {q : Except Fault Unit}

/-- Its calls are handed over, or a case has no call. -/
theorem submit_handed (hp : p.waiting = [])
    (h : Ends (submit env algorithm g.cases p.client.groups.length)
      (Desk.opened g.tgId g.cases.length p, w) q (p', w')) :
    w' = w ∧ p'.error = p.error ∧
      p'.client.groups[p.client.groups.length]? = some (.empty g.tgId g.cases.length) ∧
      ∃ k, (Batch.ofGroup algorithm g p).Handed env.schedule k p' ∧
        ((q = .ok () ∧ k = g.cases.length) ∨
          ∃ c ∈ g.cases, ∃ f, arguments c = .error f ∧ q = .error f) := by
  have hstart : (Batch.ofGroup algorithm g p).Handed env.schedule 0
      (Desk.opened g.tgId g.cases.length p) :=
    { submitted := rfl
      jobs := fun job hj => by
        rw [show (Desk.opened g.tgId g.cases.length p).waiting = [] from hp] at hj
        cases hj
      asked := fun i hi => absurd hi (Nat.not_lt_zero i) }
  obtain ⟨hw, hclient, herror, hk⟩ :=
    Batch.submitFrom_handed (b := Batch.ofGroup algorithm g p) (List.nil_append _) rfl hstart h
  exact ⟨hw, herror, by rw [hclient]; exact Desk.getElem?_opened, hk⟩

/-- If none of its calls is lost, they wait in the order of the cases. -/
theorem submit_calls (hlost : ∀ n, env.schedule.lost n = false) (hp : p.waiting = [])
    (h : Ends (submit env algorithm g.cases p.client.groups.length)
      (Desk.opened g.tgId g.cases.length p, w) q (p', w')) :
    match calls algorithm g.cases with
    | .error e => q = .error e
    | .ok cs => q = .ok () ∧ p'.waiting.map Job.call = cs := by
  have hcalls := submitFrom_calls hlost h
  rw [show (Desk.opened g.tgId g.cases.length p).waiting = [] from hp] at hcalls
  exact hcalls

end

end XofConformance.Functional
