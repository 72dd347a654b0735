import XofConformance.CommandLine.Run
import XofConformance.Proofs.Run.Process

/-!
# Archives

A host that keeps an archive of the files it has written, on top of whatever else it does. Looking
at files, starting an actor and talking to it or to the user leave the archive as it is; so does
all that a vector set does while it is run over a channel to an actor. What such an effect does
below the archive is what it does on the host alone.

    Below x y → Run x v a v' → Run y v.2 a v'.2 ∧ v'.1 = v.1                             (Below)
    Run (host.archived.write path t) (files, w) (.ok ()) v → v.1 = files ++ [(path, t)]
                                                                          (run_archived_write)
-/

namespace XofConformance

/-! ## Kinds of worlds -/

section

variable {m : Type → Type} [Monad m] {W : Type} [HasRuns m W] {α β : Type} {I : W → Prop}

/-- From a world of a kind the effect only leads to worlds of that kind. -/
def Keeps (I : W → Prop) (x : m α) : Prop := ∀ ⦃w : W⦄ ⦃a : α⦄ ⦃w' : W⦄, I w → Run x w a w' → I w'

theorem keeps_pure {a : α} : Keeps I (pure a : m α) := by
  intro w b w' hw h
  obtain ⟨-, rfl⟩ := run_pure.1 h
  exact hw

theorem keeps_bind {x : m α} {f : α → m β} (hx : Keeps I x) (hf : ∀ a, Keeps I (f a)) :
    Keeps I (x >>= f) := by
  intro w b w' hw h
  obtain ⟨a, v, ha, hb⟩ := run_bind.1 h
  exact hf a (hx hw ha) hb

end

/-! ## Channels -/

namespace Actor.Channel

variable {m : Type → Type} [Monad m] {W : Type} [HasRuns m W] {I : W → Prop}
  {channel : Channel m}

/-- Sending and receiving lead to no world of another kind. -/
structure Stays (I : W → Prop) (channel : Channel m) : Prop where
  send (line : Text) : Keeps I (channel.send line)
  receive : Keeps I channel.receive

theorem Stays.submit (h : channel.Stays I) (c : Call) (l : Link) :
    Keeps I (l.submit channel.send c) := by
  unfold Link.submit
  cases h' : l.take.2.register l.take.1 with
  | error why =>
    simp only [h']
    exact keeps_pure
  | ok l =>
    simp only [h']
    refine keeps_bind (h.send _) fun sent => ?_
    cases sent <;> exact keeps_pure

theorem Stays.await (h : channel.Stays I) (late : ActorFault) (id fuel : Nat) (l : Link) :
    Keeps I (channel.await late id fuel l) := by
  induction fuel generalizing l with
  | zero => exact keeps_pure
  | succ fuel ih =>
    unfold Channel.await
    refine keeps_bind h.receive fun received => ?_
    cases received <;> refine keeps_bind keeps_pure fun heard => ?_
    all_goals
      obtain ⟨l, answers⟩ := heard
      cases ha : answers.lookup id with
      | some a =>
        simp only [ha]
        exact keeps_pure
      | none =>
        simp only [ha]
        exact ih l

/-- Asking over the channel leads to no world of another kind, whatever becomes of the link. -/
theorem Stays.subject (h : channel.Stays I) (seconds : Binary64) (c : Call) :
    Keeps (fun v : Link × W => I v.2) (channel.subject seconds c) := by
  rintro ⟨l, w⟩ o ⟨l', w'⟩ hw hrun
  refine keeps_bind (h.submit c l) (fun sent => ?_) hw
    (show Run (channel.subject seconds c l) w (o, l') w' from hrun)
  obtain ⟨sent, l₁⟩ := sent
  cases sent with
  | error why => exact keeps_pure
  | ok id => exact keeps_bind (h.await _ _ _ _) fun _ => keeps_pure

end Actor.Channel

namespace CommandLine

section

variable {m : Type → Type} [Monad m] {W : Type} [HasRuns m W] {I : W → Prop}
  {channel : Actor.Channel m} {seconds : Binary64}

/-- That asking leads to no world of another kind is all that an account needs to know. -/
def account (h : channel.Stays I) (seconds : Binary64) :
    Account ({ subject := channel.subject seconds } : Setting (Desk Unit) (StateT Actor.Link m)) where
  Sound v := I v.2
  Posted _ _ _ := True
  Given _ _ _ := True
  put hw h := by
    obtain ⟨-, rfl⟩ := run_pure.1 h
    exact ⟨⟨hw, id, id⟩, trivial⟩
  answer hw _ ha := ⟨⟨h.subject seconds _ hw ha, fun _ => trivial, fun _ => trivial⟩, trivial⟩
  ask hw ha := ⟨⟨h.subject seconds _ hw ha, fun _ => trivial, fun _ => trivial⟩, trivial⟩

/-- Running a task over the channel leads to no world of another kind. -/
theorem Task.answer_keeps [LawfulMonad m] (h : channel.Stays I) (t : Task) :
    Keeps I (t.answer seconds channel) := by
  intro w r w' hw hrun
  obtain ⟨⟨⟨q, p⟩, l⟩, v, hset, hr⟩ := run_bind.1 hrun
  obtain ⟨-, rfl⟩ := run_pure.1 hr
  have hends : Ends (t.vectors.run { subject := channel.subject seconds } t.algorithm.name)
      (({ client := { extra := () } } : Pool (Desk Unit)), (({} : Actor.Link), w)) q
      (p, (l, w')) := hset
  have hsound : (account h seconds).Sound (({} : Actor.Link), w) := hw
  exact (ends_vectorSet (fun jobs => List.Perm.refl jobs) ⟨rfl, rfl⟩ hsound hends).1.sound

end

/-! ## Hosts -/

/-- Files that were written, each as its path and its content, in the order of the writing. -/
abbrev Archive := List (Text × Text)

section

variable {m : Type → Type} [Monad m]

/-- The way to an actor from a host that keeps an archive. -/
def Archive.channel (channel : Actor.Channel m) : Actor.Channel (StateT Archive m) where
  send line := StateT.lift (channel.send line)
  receive := StateT.lift channel.receive

/-- The host with an archive of the files that it has written. -/
def Host.archived (host : Host m) : Host (StateT Archive m) where
  isThere path := StateT.lift (host.isThere path)
  isProgram path := StateT.lift (host.isProgram path)
  read path := StateT.lift (host.read path)
  write path content := do
    match ← StateT.lift (host.write path content) with
    | .ok () =>
      modify (· ++ [(path, content)])
      return .ok ()
    | .error why => return .error why
  environment := StateT.lift host.environment
  loader := host.loader
  start c := do
    let r ← StateT.lift (host.start c)
    return r.map Archive.channel
  inform line := StateT.lift (host.inform line)
  complain line := StateT.lift (host.complain line)

variable {W : Type} [HasRuns m W] {host : Host m} {files files' : Archive} {w w' : W}

/-- What is done below the archive leaves the archive as it is. -/
theorem keeps_lift {α : Type} {x : m α} :
    Keeps (fun v : Archive × W => v.1 = files) (StateT.lift x) := by
  rintro ⟨_, w⟩ a ⟨_, w'⟩ hv h
  obtain ⟨-, he⟩ := run_liftState.1 h
  exact he.trans hv

theorem Archive.channel_stays (channel : Actor.Channel m) :
    (Archive.channel channel).Stays fun v : Archive × W => v.1 = files :=
  ⟨fun _ => keeps_lift, keeps_lift⟩

/-- A file is in the archive as soon as it is written, and only then. -/
theorem run_archived_write {path content : Text} {r : Except FileFault Unit}
    (h : Run (host.archived.write path content) (files, w) r (files', w')) :
    Run (host.write path content) w r w' ∧
      files' = if r.isOk then files ++ [(path, content)] else files := by
  obtain ⟨q, ⟨files₁, w₁⟩, hq, hrest⟩ := run_bind.1 h
  obtain ⟨hq, rfl⟩ := run_liftState.1 hq
  cases q with
  | ok u =>
    obtain ⟨_, v, hm, hp⟩ := run_bind.1 hrest
    cases run_modify.1 hm
    obtain ⟨rfl, he⟩ := run_pure.1 hp
    cases he
    exact ⟨hq, rfl⟩
  | error why =>
    obtain ⟨rfl, he⟩ := run_pure.1 hrest
    cases he
    exact ⟨hq, rfl⟩

theorem run_archived_start {c : Config} {r : Except Text (Actor.Channel (StateT Archive m))}
    (h : Run (host.archived.start c) (files, w) r (files', w')) :
    files' = files ∧ ∃ q, Run (host.start c) w q w' ∧ r = q.map Archive.channel := by
  obtain ⟨q, ⟨files₁, w₁⟩, hq, hr⟩ := run_bind.1 h
  obtain ⟨hq, rfl⟩ := run_liftState.1 hq
  obtain ⟨rfl, he⟩ := run_pure.1 hr
  cases he
  exact ⟨rfl, q, hq, rfl⟩

end

/-! ## Below the archive -/

section

variable {m : Type → Type} [Monad m] {W : Type} [HasRuns m W] {α β : Type}

/-- The effect leaves the archive as it is, and below it is the other effect. -/
def Below (x : StateT Archive m α) (y : m α) : Prop :=
  ∀ ⦃v v' : Archive × W⦄ ⦃a : α⦄, Run x v a v' → Run y v.2 a v'.2 ∧ v'.1 = v.1

theorem below_lift {y : m α} : Below (StateT.lift y) y := fun _ _ _ h => run_liftState.1 h

theorem below_pure {a : α} : Below (pure a) (pure a : m α) := by
  intro v v' b h
  obtain ⟨rfl, rfl⟩ := run_pure.1 h
  exact ⟨run_pure.2 ⟨rfl, rfl⟩, rfl⟩

theorem below_bind {x : StateT Archive m α} {y : m α} {f : α → StateT Archive m β} {g : α → m β}
    (hx : Below x y) (hf : ∀ a, Below (f a) (g a)) : Below (x >>= f) (y >>= g) := by
  intro v v' b h
  obtain ⟨a, v₁, ha, hb⟩ := run_bind.1 h
  obtain ⟨ha, hv₁⟩ := hx ha
  obtain ⟨hb, hv'⟩ := hf a hb
  exact ⟨run_bind.2 ⟨a, v₁.2, ha, hb⟩, hv'.trans hv₁⟩

theorem below_anyM {p : α → StateT Archive m Bool} {q : α → m Bool} {as : List α}
    (hp : ∀ a, Below (p a) (q a)) : Below (as.anyM p) (as.anyM q) := by
  induction as with
  | nil => exact below_pure
  | cons a rest ih =>
    refine below_bind (hp a) fun b => ?_
    cases b with
    | true => exact below_pure
    | false => exact ih

theorem below_forM {f : α → StateT Archive m PUnit} {g : α → m PUnit} {as : List α}
    (hf : ∀ a, Below (f a) (g a)) : Below (as.forM f) (as.forM g) := by
  induction as with
  | nil => exact below_pure
  | cons a rest ih => exact below_bind (hf a) fun _ => ih

theorem below_finds (host : Host m) (name : Text) :
    Below (host.archived.finds name) (host.finds name) := by
  refine below_bind below_lift fun there => ?_
  cases there with
  | true => exact below_pure
  | false => exact below_bind below_lift fun _ => below_anyM fun _ => below_lift

end

end CommandLine

end XofConformance
