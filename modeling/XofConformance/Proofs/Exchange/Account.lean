import XofConformance.Proofs.Exchange.Operations

/-!
# Accounts of a subject

What is known about the answers of a subject while calls are on their way to it. Records tell of a
world whether it is as it should be, which calls were put to the subject, and which answers it has
given; an account is a promise that the subject keeps its records up. Whatever the workers do,
nothing that is on record is forgotten.

    A.Holds p w → Run (env.settle p) w p' w' → A.Later w w'                 (Account.settle_later)
-/

namespace XofConformance

/-- What worlds tell about a subject. -/
structure Records (W : Type) where
  /-- The world is as it should be. -/
  Sound : W → Prop
  /-- A call was put to the subject under a ticket. -/
  Posted : W → Nat → Call → Prop
  /-- The subject has given an answer to a call. -/
  Given : W → Call → Outcome → Prop

/-- The second world comes after the first: it is sound, and nothing is forgotten. -/
structure Records.Later {W : Type} (R : Records W) (w w' : W) : Prop where
  sound : R.Sound w'
  posted {t : Nat} {c : Call} : R.Posted w t c → R.Posted w' t c
  given {c : Call} {o : Outcome} : R.Given w c o → R.Given w' c o

theorem Records.Later.refl {W : Type} {R : Records W} {w : W} (h : R.Sound w) : R.Later w w :=
  ⟨h, id, id⟩

theorem Records.Later.trans {W : Type} {R : Records W} {w w' w'' : W} (h : R.Later w w')
    (h' : R.Later w' w'') : R.Later w w'' :=
  ⟨h'.sound, fun hp => h'.posted (h.posted hp), fun hg => h'.given (h.given hg)⟩

/-- Whatever answer is on the one record, the other has too, up to the words of a failure. -/
def Records.Tells {W W' : Type} (R : Records W) (w : W) (R' : Records W') (w' : W') : Prop :=
  ∀ {c : Call} {o : Outcome}, R.Given w c o → ∃ o', R'.Given w' c o' ∧ o'.toOption = o.toOption

theorem Records.Later.tells {W : Type} {R : Records W} {w w' : W} (h : R.Later w w') :
    R.Tells w R w' := fun hg => ⟨_, h.given hg, rfl⟩

theorem Records.Tells.ok {W W' : Type} {R : Records W} {w : W} {R' : Records W'} {w' : W'}
    (h : R.Tells w R' w') {c : Call} {results : List Bytes} (hg : R.Given w c (.ok results)) :
    R'.Given w' c (.ok results) := by
  obtain ⟨o, ho, he⟩ := h hg
  cases o with
  | ok results' =>
    cases he
    exact ho
  | error f => cases he

/-- Records that the subject of a setting keeps up. -/
structure Account {κ : Type} {m : Type → Type} [Monad m] {W : Type} [HasRuns m W]
    (env : Setting κ m) extends Records W where
  put {w w' : W} {c : Call} {t : Nat} :
    Sound w → Run (env.put c) w t w' → toRecords.Later w w' ∧ Posted w' t c
  answer {w w' : W} {c : Call} {t : Nat} {o : Outcome} :
    Sound w → Posted w t c → Run (env.answer t c) w o w' → toRecords.Later w w' ∧ Given w' c o
  ask {w w' : W} {c : Call} {o : Outcome} :
    Sound w → Run (env.subject c) w o w' → toRecords.Later w w' ∧ Given w' c o

namespace Account

variable {κ : Type} {m : Type → Type} [Monad m] {W : Type} [HasRuns m W] {env : Setting κ m}
  {A : Account env} {p p' : Pool κ} {w w' : W}

/-- The world is sound, and whatever the pool takes to be put to the subject was put to it. -/
structure Holds (A : Account env) (p : Pool κ) (w : W) : Prop where
  sound : A.Sound w
  posted : ∀ job ∈ p.waiting, ∀ t, job.progress = .posted t → A.Posted w t job.call

theorem holds_of_idle (hs : A.Sound w) (hp : p.waiting = []) : A.Holds p w :=
  ⟨hs, fun job hj => by rw [hp] at hj; cases hj⟩

/-- A step of a worker, as the account sees it. -/
theorem advance_later {job : Job κ} {client client' : κ} {progress : Progress} (hs : A.Sound w)
    (hp : ∀ t, job.progress = .posted t → A.Posted w t job.call)
    (h : Run (env.advance job client) w (progress, client') w') :
    A.Later w w' ∧ ∀ t, progress = .posted t → A.Posted w' t job.call := by
  rcases advance_cases h with ⟨-, -, t, ht, rfl⟩ | ⟨t, o, hpt, -, ho, hr⟩ | ⟨rs, -, rfl, hr⟩ |
    ⟨f, -, rfl, -, rfl⟩
  · obtain ⟨hl, hpost⟩ := A.put hs ht
    exact ⟨hl, fun t ht => by cases ht; exact hpost⟩
  · obtain ⟨hl, -⟩ := A.answer hs (hp t hpt) ho
    refine ⟨hl, fun t ht => ?_⟩
    rcases hr with ⟨rs, -, rfl⟩ | ⟨f, -, rfl⟩ <;> cases ht
  · refine ⟨Records.Later.refl hs, fun t ht => ?_⟩
    rcases hr with ⟨-, rfl⟩ | ⟨f, -, -, rfl⟩ <;> cases ht
  · exact ⟨Records.Later.refl hs, fun t ht => by cases ht⟩

theorem turn_holds {position : Nat} (hA : A.Holds p w) (h : Run (env.turn position p) w p' w') :
    A.Holds p' w' ∧ A.Later w w' := by
  rcases turn_cases h with ⟨rfl, rfl, -⟩ | ⟨job, progress, client, hj, -, ha, rfl⟩
  · exact ⟨hA, Records.Later.refl hA.sound⟩
  · obtain ⟨hl, hpost⟩ := advance_later hA.sound (hA.posted job (List.mem_of_getElem? hj)) ha
    refine ⟨⟨hl.sound, fun job' hj' t ht => ?_⟩, hl⟩
    rcases List.mem_or_eq_of_mem_set hj' with hm | rfl
    · exact hl.posted (hA.posted job' hm t ht)
    · exact hpost t ht

theorem work_holds {turns : List Nat} (hA : A.Holds p w) (h : Run (env.work turns p) w p' w') :
    A.Holds p' w' ∧ A.Later w w' :=
  work_keeps (I := fun q v => A.Holds q v ∧ A.Later w v)
    (fun hi ht => ⟨(turn_holds hi.1 ht).1, hi.2.trans (turn_holds hi.1 ht).2⟩)
    ⟨hA, Records.Later.refl hA.sound⟩ h

theorem settle_later (hf : env.schedule.Faithful) (hA : A.Holds p w)
    (h : Run (env.settle p) w p' w') : A.Later w w' := by
  obtain ⟨turns, q, hw, -, rfl⟩ := run_settle h
  refine (work_holds ⟨hA.sound, fun job hj => ?_⟩ hw).2
  exact hA.posted job ((hf p.waiting).mem_iff.1 hj)

theorem ask_later {c : Call} {r : Outcome} (hs : A.Sound w)
    (h : Run (env.subject.ask c) w r w') :
    A.Later w w' ∧ ∃ o, A.Given w' c o ∧ r = c.settle o := by
  obtain ⟨o, ho, rfl⟩ := run_ask.1 h
  obtain ⟨hl, hg⟩ := A.ask hs ho
  exact ⟨hl, o, hg, rfl⟩

end Account

end XofConformance
