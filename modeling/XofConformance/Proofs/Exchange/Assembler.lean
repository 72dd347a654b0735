import XofConformance.Exchange.Assembler
import XofConformance.Proofs.Exchange.Desk
import XofConformance.Proofs.Exchange.Outstanding
import XofConformance.Proofs.Exchange.Session
import XofConformance.Run.Functional

/-!
# What an assembler hands out

A client opens groups, has them filled by calls or fills them itself, closes them, sets checkpoints
and drains, in any order and with calls of several groups on their way. Whatever the workers do
meanwhile, the list of the assembler is that of the groups whose closing succeeded, each as it stood
then; nothing is taken from the list and nothing on it changes.

    Kept n d steps p → Ends (perform env op) (p, w) r (p', w') →
      Kept n d (steps ++ [{ op, outcome := r, after := p' }]) p'               (Kept.perform)
    Course env steps v v' → the list of v' is what was handed out in the steps
                                                                        (Course.keeps_list)
-/

namespace XofConformance

/-! ## Operations -/

/-- The identifier of a group and the number of its slots. -/
def OpenGroup.shape (g : OpenGroup) : Number × Nat := (g.tgId, g.slots.length)

namespace Assembler

/-- What a client, or a worker meanwhile, does. -/
inductive Operation (ε : Type) (m : Type → Type)
  | openGroup (tgId : Number) (count : Nat)
  | fill (group index : Nat) (r : TestResponse)
  | dispatch (algorithm : Text) (group : Nat) (cases : List PreparedCase)
  | close (group : Nat)
  | checkpoint (action : Desk (Assembler ε) → m (Except Fault Unit × Desk (Assembler ε)))
  | drain
  | transact (c : Call)
  | work (turns : List Nat)

/-- Does an operation. -/
def perform {ε : Type} {m : Type → Type} [Monad m] (env : Setting (Desk (Assembler ε)) m) :
    Operation ε m → Exchange (Desk (Assembler ε)) m Unit
  | .openGroup tgId count => do let _ ← Desk.openGroup tgId count
  | .fill group index r => Desk.fillNow group index r
  | .dispatch algorithm group cases => Functional.submit env algorithm cases group
  | .close group => Assembler.close env group
  | .checkpoint action => env.perform (.checkpoint action)
  | .drain => env.perform .drain
  | .transact c => env.perform (.transact c)
  | .work turns => env.perform (.work turns)

/-- An operation that was done, what it came to, and the pool after it. -/
structure Step (ε : Type) (m : Type → Type) where
  op : Operation ε m
  outcome : Except Fault Unit
  after : Pool (Desk (Assembler ε))

section

variable {ε : Type} {m : Type → Type}

/-- The group that a step has put on the list: the one that was closed, as it stands. -/
def Step.handed? (s : Step ε m) : Option GroupResponse :=
  match s.op, s.outcome with
  | .close group, .ok () => (s.after.client.groups[group]?).map OpenGroup.snapshot
  | _, _ => none

/-- The groups that were closed in steps, in the order of the closing, each as it stood then. -/
def handedOut (steps : List (Step ε m)) : List GroupResponse := steps.filterMap Step.handed?

/-- The group that a step has opened. -/
def Step.opened? (s : Step ε m) : Option (Number × Nat) :=
  match s.op with
  | .openGroup tgId count => some (tgId, count)
  | _ => none

/-- The groups that were opened in steps, each by its identifier and the number of its slots. -/
def opened (steps : List (Step ε m)) : List (Number × Nat) := steps.filterMap Step.opened?

/-- The number of the first call that was handed over since the last draining, if `n` is the number
of the first call of all. -/
def drainedAt (n : Nat) (steps : List (Step ε m)) : Nat :=
  steps.foldl (fun k s =>
    match s.op with
    | .drain => s.after.submitted
    | _ => k) n

/-- The two desks have the same list and groups of the same shapes. -/
structure SameShapes (d d' : Desk (Assembler ε)) : Prop where
  output : d'.extra.output = d.extra.output
  shapes : d'.groups.map OpenGroup.shape = d.groups.map OpenGroup.shape

end

section

variable {ε : Type} {m : Type → Type} [Monad m] {W : Type} [HasRuns m W]

/-- An operation that a client can do which has opened a number of groups. It names a group that it
has opened. The action of a checkpoint may ask the subject, fill slots and change what the client
keeps beside its groups and the list, but neither opens nor closes a group. -/
def Operation.Allowed (opened : Nat) : Operation ε m → Prop
  | .fill group _ _ | .dispatch _ group _ | .close group => group < opened
  | .checkpoint action => ∀ {d d' : Desk (Assembler ε)} {r : Except Fault Unit} {w w' : W},
    Run (action d) w (r, d') w' → SameShapes d d'
  | _ => True

/-- Operations one after the other, each with whatever it comes to. -/
inductive Course (env : Setting (Desk (Assembler ε)) m) :
    List (Step ε m) → Pool (Desk (Assembler ε)) × W → Pool (Desk (Assembler ε)) × W → Prop
  | start (v : Pool (Desk (Assembler ε)) × W) : Course env [] v v
  | next {steps : List (Step ε m)} {op : Operation ε m} {r : Except Fault Unit}
    {v v' v'' : Pool (Desk (Assembler ε)) × W} : Course env steps v v' →
    op.Allowed v'.1.client.groups.length → Ends (perform env op) v' r v'' →
    Course env (steps ++ [{ op, outcome := r, after := v''.1 }]) v v''

variable {env : Setting (Desk (Assembler ε)) m} {d d' d'' : Desk (Assembler ε)}
  {p p' p'' : Pool (Desk (Assembler ε))} {w w' w'' : W}

/-! ## The list and the shapes of the groups -/

theorem SameShapes.refl (d : Desk (Assembler ε)) : SameShapes d d := ⟨rfl, rfl⟩

theorem SameShapes.trans (h : SameShapes d d') (h' : SameShapes d' d'') : SameShapes d d'' :=
  ⟨h'.output.trans h.output, h'.shapes.trans h.shapes⟩

theorem SameShapes.length_groups (h : SameShapes d d') : d'.groups.length = d.groups.length := by
  have hlen := congrArg List.length h.shapes
  rwa [List.length_map, List.length_map] at hlen

/-- Filling a slot changes neither the list nor the shape of a group. -/
theorem sameShapes_fill {group index : Nat} {r : TestResponse}
    (h : d.fill group index r = .ok d') : SameShapes d d' := by
  unfold Desk.fill at h
  split at h
  · next g' hfill =>
    cases h
    obtain ⟨g, hg, hfill⟩ := Option.bind_eq_some_iff.1 hfill
    have hshape : g'.shape = g.shape := by
      unfold OpenGroup.fill? at hfill
      split at hfill
      · cases hfill
        exact Prod.ext rfl List.length_set
      · cases hfill
    refine ⟨rfl, ?_⟩
    show (d.groups.set group g').map OpenGroup.shape = _
    obtain ⟨hlt, rfl⟩ := List.getElem?_eq_some_iff.1 hg
    rw [List.map_set, hshape, ← List.getElem_map OpenGroup.shape (h := by simpa using hlt),
      List.set_getElem_self]
  · cases h

/-- The deliveries of the calls that wait change neither the list nor the shape of a group. -/
def Gentle (p : Pool (Desk (Assembler ε))) : Prop :=
  ∀ job ∈ p.waiting, ∀ results d d', job.deliver results d = .ok d' → SameShapes d d'

theorem Gentle.turn {position : Nat} (h : Gentle p) (ht : Run (env.turn position p) w p' w') :
    Gentle p' ∧ SameShapes p.client p'.client := by
  rcases turn_cases ht with ⟨rfl, -, -⟩ | ⟨job, progress, client, hj, -, ha, rfl⟩
  · exact ⟨h, SameShapes.refl _⟩
  have hmem := List.mem_of_getElem? hj
  refine ⟨fun job' hj' => ?_, ?_⟩
  · rcases List.mem_or_eq_of_mem_set hj' with hm | rfl
    · exact h job' hm
    · exact h job hmem
  · show SameShapes p.client client
    rcases advance_cases ha with ⟨-, rfl, -⟩ | ⟨_, _, -, rfl, -⟩ |
      ⟨results, -, -, ⟨hd, -⟩ | ⟨_, -, rfl, -⟩⟩ | ⟨_, -, -, rfl, -⟩
    · exact SameShapes.refl _
    · exact SameShapes.refl _
    · exact h job hmem results _ _ hd
    · exact SameShapes.refl _
    · exact SameShapes.refl _

theorem Gentle.work {turns : List Nat} (h : Gentle p) (hw : Run (env.work turns p) w p' w') :
    Gentle p' ∧ SameShapes p.client p'.client := by
  refine work_keeps (I := fun q _ => Gentle q ∧ SameShapes p.client q.client) (fun hi ht => ?_)
    ⟨h, SameShapes.refl _⟩ hw
  obtain ⟨hg, hs⟩ := hi.1.turn ht
  exact ⟨hg, hi.2.trans hs⟩

theorem Gentle.settle (hf : env.schedule.Faithful) (h : Gentle p)
    (hs : Run (env.settle p) w p' w') : Gentle p' ∧ SameShapes p.client p'.client := by
  obtain ⟨turns, q, hw, -, rfl⟩ := run_settle hs
  have hreleased : Gentle { p with waiting := env.schedule.release p.waiting } :=
    fun job hj => h job ((hf p.waiting).mem_iff.1 hj)
  refine ⟨fun job hj => ?_, (hreleased.work hw).2⟩
  cases hj

theorem Gentle.accept {c : Call}
    {deliver : List Bytes → Desk (Assembler ε) → Except Fault (Desk (Assembler ε))}
    (h : Gentle p) (hd : ∀ results d d', deliver results d = .ok d' → SameShapes d d') :
    Gentle (env.schedule.accept c deliver p) := by
  intro job hj
  rcases Schedule.mem_accept_iff.1 hj with hj | ⟨-, rfl⟩
  · exact h job hj
  · exact hd

end

/-! ## What every step keeps -/

section

variable {ε : Type} {m : Type → Type} {n : Nat} {d : Desk (Assembler ε)}
  {p p' : Pool (Desk (Assembler ε))} {steps : List (Step ε m)} {s : Step ε m}

theorem handedOut_concat : handedOut (steps ++ [s]) = handedOut steps ++ s.handed?.toList := by
  unfold handedOut
  rw [List.filterMap_append]
  cases h : s.handed? <;> simp [h]

theorem opened_concat : opened (steps ++ [s]) = opened steps ++ s.opened?.toList := by
  unfold opened
  rw [List.filterMap_append]
  cases h : s.opened? <;> simp [h]

theorem drainedAt_concat (h : s.op ≠ .drain) : drainedAt n (steps ++ [s]) = drainedAt n steps := by
  unfold drainedAt
  rw [List.foldl_append]
  obtain ⟨op, _, _⟩ := s
  cases op with
  | drain => exact absurd rfl h
  | _ => rfl

/-- The step has put the group with this number on the list, with as many answers as slots were
opened for it, in the order of the slots. -/
def Step.Emits (s : Step ε m) (group : Nat) (shapes : List (Number × Nat)) : Prop :=
  ∃ g e, s.after.client.groups[group]? = some g ∧ s.handed? = some e ∧ e.tgId = g.tgId ∧
    g.slots = e.tests.map some ∧ shapes[group]? = some (e.tgId, e.tests.length)

/-- What holds after steps from a desk. -/
structure Kept (n : Nat) (d : Desk (Assembler ε)) (steps : List (Step ε m))
    (p : Pool (Desk (Assembler ε))) : Prop where
  gentle : Gentle p
  watched : Watched (drainedAt n steps) p
  output : p.client.extra.output = d.extra.output ++ handedOut steps
  shapes : p.client.groups.map OpenGroup.shape = d.groups.map OpenGroup.shape ++ opened steps
  emits : ∀ s ∈ steps, ∀ group, s.op = .close group → s.outcome = .ok () →
    s.Emits group (d.groups.map OpenGroup.shape ++ opened steps)

namespace Kept

theorem start (hg : Gentle p) (hw : Watched n p) : Kept n p.client ([] : List (Step ε m)) p where
  gentle := hg
  watched := hw
  output := (List.append_nil _).symm
  shapes := (List.append_nil _).symm
  emits := fun _ h => by cases h

theorem length_groups (h : Kept n d steps p) :
    p.client.groups.length = d.groups.length + (opened steps).length := by
  have hlen := congrArg List.length h.shapes
  rwa [List.length_map, List.length_append, List.length_map] at hlen

/-- One more step, by what it adds to the list and which group it opens. -/
theorem concat (h : Kept n d steps p) (hgentle : Gentle s.after)
    (hwatched : Watched (drainedAt n (steps ++ [s])) s.after)
    (houtput : s.after.client.extra.output = p.client.extra.output ++ s.handed?.toList)
    (hshapes : s.after.client.groups.map OpenGroup.shape =
      p.client.groups.map OpenGroup.shape ++ s.opened?.toList)
    (hemits : ∀ group, s.op = .close group → s.outcome = .ok () →
      s.Emits group (p.client.groups.map OpenGroup.shape)) :
    Kept n d (steps ++ [s]) s.after := by
  -- a group that is opened now comes behind those that are open, so what was said of them stands
  have hmore {s' : Step ε m} {group : Nat}
      (he : s'.Emits group (d.groups.map OpenGroup.shape ++ opened steps)) :
      s'.Emits group (d.groups.map OpenGroup.shape ++ opened (steps ++ [s])) := by
    obtain ⟨g, e, hg, hh, hid, hslots, hshape⟩ := he
    refine ⟨g, e, hg, hh, hid, hslots, ?_⟩
    obtain ⟨hlt, -⟩ := List.getElem?_eq_some_iff.1 hshape
    rw [opened_concat, ← List.append_assoc, List.getElem?_append_left hlt]
    exact hshape
  refine ⟨hgentle, hwatched, ?_, ?_, fun s' hs' group hop hok => hmore ?_⟩
  · rw [houtput, h.output, handedOut_concat, List.append_assoc]
  · rw [hshapes, h.shapes, opened_concat, List.append_assoc]
  · rcases List.mem_append.1 hs' with hs' | hs'
    · exact h.emits s' hs' group hop hok
    · rw [List.mem_singleton.1 hs'] at hop hok ⊢
      rw [← h.shapes]
      exact hemits group hop hok

/-- A step that opens no group and closes none. -/
theorem quiet {op : Operation ε m} {r : Except Fault Unit} (h : Kept n d steps p)
    (hgentle : Gentle p') (hwatched : Watched (drainedAt n (steps ++ [⟨op, r, p'⟩])) p')
    (hsame : SameShapes p.client p'.client)
    (hclose : ∀ group, op = .close group → r ≠ .ok ())
    (hopen : ∀ tgId count, op ≠ .openGroup tgId count) :
    Kept n d (steps ++ [⟨op, r, p'⟩]) p' := by
  have hhanded : Step.handed? ⟨op, r, p'⟩ = none := by
    unfold Step.handed?
    split
    · next group hop hok => exact absurd hok (hclose group hop)
    · rfl
  have hopened : Step.opened? ⟨op, r, p'⟩ = none := by
    unfold Step.opened?
    split
    · next tgId count hop => exact absurd hop (hopen tgId count)
    · rfl
  refine h.concat hgentle hwatched ?_ ?_ fun group hop hok => absurd hok (hclose group hop)
  · rw [hhanded, Option.toList_none, List.append_nil]
    exact hsame.output
  · rw [hopened, Option.toList_none, List.append_nil]
    exact hsame.shapes

end Kept

end

/-! ## What an operation comes to -/

section

variable {ε : Type} {m : Type → Type} [Monad m] [LawfulMonad m] {W : Type} [HasRuns m W]
  {env : Setting (Desk (Assembler ε)) m} {d : Desk (Assembler ε)}
  {p p' p'' : Pool (Desk (Assembler ε))} {w w' w'' : W} {n : Nat} {steps : List (Step ε m)}

/-- Handing over the calls of a group keeps what handing over one of them keeps. -/
theorem submitFrom_keeps {I : Pool (Desk (Assembler ε)) → Prop} {algorithm : Text}
    {group index : Nat} {cases : List PreparedCase} {r : Except Fault Unit}
    (haccept : ∀ {q : Pool (Desk (Assembler ε))} {call : Call} {index : Nat} {c : PreparedCase},
      I q → I (env.schedule.accept call
        (fun results desk => desk.fill group index (Functional.response c results)) q))
    (hi : I p) (h : Ends (Functional.submitFrom env algorithm group index cases) (p, w) r (p', w')) :
    I p' := by
  induction cases generalizing index p w with
  | nil =>
    obtain ⟨-, he⟩ := ends_pure.1 h
    cases he
    exact hi
  | cons c rest ih =>
    rcases ends_liftExcept_bind.1 h with ⟨f, -, -, he⟩ | ⟨args, -, h⟩
    · cases he
      exact hi
    · rcases ends_bind.1 h with ⟨f, hs, -⟩ | ⟨⟨⟩, ⟨q, v⟩, hs, hrest⟩
      · cases (ends_submit.1 hs).1
      · obtain ⟨-, rfl, rfl⟩ := ends_submit.1 hs
        exact ih (haccept hi) hrest

theorem fillNow_cases {group index : Nat} {a : TestResponse} {r : Except Fault Unit}
    (h : Ends (Desk.fillNow group index a : Exchange (Desk (Assembler ε)) m Unit) (p, w) r
      (p', w')) :
    ∃ client, p' = { p with client } ∧ SameShapes p.client client := by
  unfold Desk.fillNow at h
  rw [ends_get_bind] at h
  split at h
  · next d hfill =>
    obtain ⟨-, rfl, -⟩ := ends_set.1 h
    exact ⟨d, rfl, sameShapes_fill hfill⟩
  · obtain ⟨-, he⟩ := ends_throw.1 h
    cases he
    exact ⟨p.client, rfl, SameShapes.refl _⟩

/-- A group is put on the list as it stands, or it is not complete and nothing changes. -/
theorem emit_cases {group : Nat} {g : OpenGroup} {r : Except Fault Unit}
    (hg : p.client.groups[group]? = some g)
    (h : Ends (emit group : Exchange (Desk (Assembler ε)) m Unit) (p, w) r (p', w')) :
    w' = w ∧ ((g.missing = [] ∧ r = .ok () ∧ p' = { p with client := append g.snapshot p.client }) ∨
      g.missing ≠ [] ∧ r = .error (.subject (.missingResults g.tgId g.missing.length)) ∧
        p' = p) := by
  rcases ends_bind.1 h with ⟨f, hc, hr⟩ | ⟨e, ⟨q, v⟩, hc, hm⟩
  · obtain ⟨hp, hw, ⟨-, he⟩ | ⟨hmissing, he⟩⟩ := (Desk.ends_collect hg).1 hc
    · cases he
    · cases he
      exact ⟨hw, Or.inr ⟨hmissing, hr, hp⟩⟩
  · obtain ⟨rfl, rfl, ⟨hmissing, he⟩ | ⟨-, he⟩⟩ := (Desk.ends_collect hg).1 hc
    · cases he
      obtain ⟨hr, hp, hw⟩ := ends_modify.1 hm
      exact ⟨hw, Or.inl ⟨hmissing, hr, hp⟩⟩
    · cases he

/-- Closing a group waits for the calls. Then a failure is raised, or the group is not complete, or
it is put on the list as it stands. -/
theorem close_cases (hf : env.schedule.Faithful) (hp : Gentle p) {group : Nat}
    {r : Except Fault Unit} (hopen : group < p.client.groups.length)
    (h : Ends (Assembler.close env group) (p, w) r (p'', w'')) :
    ∃ p' g, Run (env.settle p) w p' w'' ∧ p'.client.groups[group]? = some g ∧
      ((∃ f, p'.error = some f ∧ r = .error f ∧ p'' = p') ∨
      (p'.error = none ∧ g.missing ≠ [] ∧
        r = .error (.subject (.missingResults g.tgId g.missing.length)) ∧ p'' = p') ∨
      p'.error = none ∧ g.missing = [] ∧ r = .ok () ∧
        p'' = { p' with client := append g.snapshot p'.client }) := by
  obtain ⟨p', w', hs, hrest⟩ := ends_checkpoint.1 h
  obtain ⟨-, hshapes⟩ := hp.settle hf hs
  have hlt : group < p'.client.groups.length := by
    rw [hshapes.length_groups]
    exact hopen
  have hg := List.getElem?_eq_getElem hlt
  rcases hrest with ⟨f, hfault, hr, hpool, rfl⟩ | ⟨hnone, hemit⟩
  · exact ⟨p', _, hs, hg, Or.inl ⟨f, hfault, hr, hpool⟩⟩
  · obtain ⟨rfl, ⟨hm, hr, hpool⟩ | ⟨hm, hr, hpool⟩⟩ := emit_cases hg hemit
    · exact ⟨p', _, hs, hg, Or.inr (Or.inr ⟨hnone, hm, hr, hpool⟩)⟩
    · exact ⟨p', _, hs, hg, Or.inr (Or.inl ⟨hnone, hm, hr, hpool⟩)⟩

/-- The list is given out when the pool was drained without a failure. -/
theorem finish_cases {r : Except Fault (List GroupResponse)}
    (h : Ends (finish env) (p, w) r (p', w')) :
    ∃ q, Run (env.settle p) w q w' ∧ p' = { q with error := none } ∧
      ((∃ f, q.error = some f ∧ r = .error f) ∨
        q.error = none ∧ r = .ok q.client.extra.output) := by
  rcases ends_bind.1 h with ⟨f, hd, hr⟩ | ⟨⟨⟩, ⟨q', v⟩, hd, hget⟩
  · obtain ⟨q, hs, hraised, hp⟩ := ends_drain.1 hd
    refine ⟨q, hs, hp, Or.inl ⟨f, ?_, hr⟩⟩
    cases he : q.error with
    | none =>
      rw [he] at hraised
      cases hraised
    | some f' =>
      rw [he] at hraised
      cases hraised
      rfl
  · obtain ⟨q, hs, hraised, rfl⟩ := ends_drain.1 hd
    rw [ends_get_bind] at hget
    obtain ⟨hr, hpool⟩ := ends_pure.1 hget
    cases hpool
    refine ⟨q, hs, rfl, Or.inr ⟨?_, hr⟩⟩
    cases he : q.error with
    | none => rfl
    | some f' =>
      rw [he] at hraised
      cases hraised

/-- Opening a group adds its shape. -/
theorem Kept.openGroup {tgId : Number} {count : Nat} {r : Except Fault Unit}
    (h : Kept n d steps p) (hop : Ends (perform env (.openGroup tgId count)) (p, w) r (p', w')) :
    Kept n d (steps ++ [⟨.openGroup tgId count, r, p'⟩]) p' := by
  have hp : p' = Desk.opened tgId count p := by
    rcases ends_bind.1 hop with ⟨f, hopen, -⟩ | ⟨group, ⟨q, v⟩, hopen, hpure⟩
    · cases (Desk.ends_openGroup.1 hopen).1
    · obtain ⟨-, rfl, -⟩ := Desk.ends_openGroup.1 hopen
      obtain ⟨-, he⟩ := ends_pure.1 hpure
      cases he
      rfl
  subst hp
  refine h.concat h.gentle ?_ (List.append_nil _).symm ?_ nofun
  · rw [drainedAt_concat]
    exacts [h.watched.client _, nofun]
  · show (p.client.groups ++ [OpenGroup.empty tgId count]).map OpenGroup.shape =
      p.client.groups.map OpenGroup.shape ++ [(tgId, count)]
    rw [List.map_append, List.map_singleton, OpenGroup.shape, OpenGroup.empty,
      List.length_replicate]

/-- Closing a group puts it on the list, or changes nothing. -/
theorem Kept.close (hf : env.schedule.Faithful) {group : Nat} {r : Except Fault Unit}
    (h : Kept n d steps p) (hopen : group < p.client.groups.length)
    (hop : Ends (perform env (.close group)) (p, w) r (p', w')) :
    Kept n d (steps ++ [⟨.close group, r, p'⟩]) p' := by
  obtain ⟨q, g, hs, hg, hcases⟩ := close_cases hf h.gentle hopen hop
  obtain ⟨hgentle, hsame⟩ := h.gentle.settle hf hs
  obtain ⟨hwatched, -⟩ := h.watched.settle hf hs
  rw [← drainedAt_concat (s := ⟨.close group, r, p'⟩) nofun] at hwatched
  rcases hcases with ⟨f, -, rfl, rfl⟩ | ⟨-, -, rfl, rfl⟩ | ⟨-, hcomplete, rfl, rfl⟩
  · exact h.quiet hgentle hwatched hsame nofun nofun
  · exact h.quiet hgentle hwatched hsame nofun nofun
  have hhanded : Step.handed? (⟨.close group, .ok (),
      { q with client := append g.snapshot q.client }⟩ : Step ε m) = some g.snapshot := by
    show (q.client.groups[group]?).map OpenGroup.snapshot = _
    rw [hg, Option.map_some]
  refine h.concat hgentle (hwatched.client _) ?_ ?_ fun group' hclose _ => ?_
  · rw [hhanded]
    show q.client.extra.output ++ [g.snapshot] = _
    rw [hsame.output]
    rfl
  · exact hsame.shapes.trans (List.append_nil _).symm
  · cases hclose
    have hslots : g.slots = g.snapshot.tests.map some := OpenGroup.slots_of_complete hcomplete
    refine ⟨g, g.snapshot, hg, hhanded, rfl, hslots, ?_⟩
    rw [← hsame.shapes, List.getElem?_map, hg, Option.map_some, OpenGroup.shape, hslots,
      List.length_map]
    rfl

/-- Every operation that is allowed keeps it. -/
theorem Kept.perform (hf : env.schedule.Faithful) {op : Operation ε m} {r : Except Fault Unit}
    (h : Kept n d steps p) (hallowed : op.Allowed (W := W) p.client.groups.length)
    (hop : Ends (perform env op) (p, w) r (p', w')) :
    Kept n d (steps ++ [⟨op, r, p'⟩]) p' := by
  cases op with
  | openGroup tgId count => exact h.openGroup hop
  | close group => exact h.close hf hallowed hop
  | fill group index a =>
    obtain ⟨client, rfl, hsame⟩ := fillNow_cases hop
    refine h.quiet h.gentle ?_ hsame nofun nofun
    rw [drainedAt_concat]
    exacts [h.watched.client client, nofun]
  | dispatch algorithm group cases =>
    obtain ⟨hgentle, hwatched, hclient⟩ := submitFrom_keeps
      (I := fun q => Gentle q ∧ Watched (drainedAt n steps) q ∧ q.client = p.client)
      (fun hq => ⟨hq.1.accept fun _ _ _ hd => sameShapes_fill hd, hq.2.1.accept, hq.2.2⟩)
      ⟨h.gentle, h.watched, rfl⟩ hop
    refine h.quiet hgentle ?_ (hclient ▸ SameShapes.refl _) nofun nofun
    rw [drainedAt_concat]
    exacts [hwatched, nofun]
  | checkpoint action =>
    obtain ⟨q, v, hs, hrest⟩ := ends_checkpoint.1 hop
    obtain ⟨hgentle, hsame⟩ := h.gentle.settle hf hs
    obtain ⟨hwatched, -⟩ := h.watched.settle hf hs
    rw [← drainedAt_concat (s := ⟨.checkpoint action, r, p'⟩) nofun] at hwatched
    rcases hrest with ⟨f, -, -, rfl, -⟩ | ⟨-, hact⟩
    · exact h.quiet hgentle hwatched hsame nofun nofun
    · obtain ⟨client, ha, rfl⟩ := ends_act.1 hact
      exact h.quiet hgentle (hwatched.client client) (hsame.trans (hallowed ha)) nofun nofun
  | drain =>
    obtain ⟨q, hs, -, rfl⟩ := ends_drain.1 hop
    obtain ⟨hgentle, hsame⟩ := h.gentle.settle hf hs
    obtain ⟨hwatched, hnone, -⟩ := h.watched.settle hf hs
    refine h.quiet hgentle ?_ hsame nofun nofun
    -- the failure is raised and forgotten, so only later calls count from now on
    unfold drainedAt
    rw [List.foldl_append]
    exact hwatched.forget hnone
  | transact c =>
    rw [ends_perform_transact hop]
    refine h.quiet h.gentle ?_ (SameShapes.refl _) nofun nofun
    rw [drainedAt_concat]
    exacts [h.watched, nofun]
  | work turns =>
    have hw := ends_perform_work hop
    obtain ⟨hgentle, hsame⟩ := h.gentle.work hw
    refine h.quiet hgentle ?_ hsame nofun nofun
    rw [drainedAt_concat]
    exacts [h.watched.work hw, nofun]

theorem Course.kept (hf : env.schedule.Faithful) {v v' : Pool (Desk (Assembler ε)) × W}
    (h : Course env steps v v') (hg : Gentle v.1) (hw : Watched n v.1) :
    Kept n v.1.client steps v'.1 := by
  induction h with
  | start v => exact Kept.start hg hw
  | next _ hallowed hop ih => exact (ih hg hw).perform hf hallowed hop

/-! ## Top theorem -/

/-- What a client can rely on at any point of a course that began with an empty list and no group,
given the steps of the course. -/
structure Promises (env : Setting (Desk (Assembler ε)) m) (n : Nat) (steps : List (Step ε m))
    (p : Pool (Desk (Assembler ε))) (w : W) : Prop where
  /-- The list is that of the groups whose closing succeeded. -/
  output : p.client.extra.output = handedOut steps
  /-- Each of them was put on the list with as many answers as slots were opened for it, in the order
  of the slots. -/
  emits : ∀ s ∈ steps, ∀ group, s.op = .close group → s.outcome = .ok () →
    s.Emits group (opened steps)
  /-- Closing a group puts it on the list if no call has failed since the last draining and no slot
  of it is empty; else it raises the failure that is recorded or the want of answers, and leaves the
  list as it was. -/
  close {group : Nat} {r : Except Fault Unit} {p' : Pool (Desk (Assembler ε))} {w' : W} :
    group < (opened steps).length → Ends (Assembler.close env group) (p, w) r (p', w') →
    ∃ g, p'.client.groups[group]? = some g ∧
      ((∃ f, r = .error f ∧ p'.error = some f ∧ p'.HasFailedSince (drainedAt n steps) ∧
        p'.client.extra.output = handedOut steps) ∨
      (¬ p'.HasFailedSince (drainedAt n steps) ∧ g.missing ≠ [] ∧
        r = .error (.subject (.missingResults g.tgId g.missing.length)) ∧
        p'.client.extra.output = handedOut steps) ∨
      ¬ p'.HasFailedSince (drainedAt n steps) ∧ g.missing = [] ∧ r = .ok () ∧
        p'.client.extra.output = handedOut steps ++ [g.snapshot])
  /-- What is on the list stays there as it is, whatever is done later. -/
  later {more : List (Step ε m)} {v : Pool (Desk (Assembler ε)) × W} :
    Course env more (p, w) v → v.1.client.extra.output = handedOut steps ++ handedOut more
  /-- The list is given out if no call has failed since the last draining; else a failure is
  raised. -/
  finish {r : Except Fault (List GroupResponse)} {p' : Pool (Desk (Assembler ε))} {w' : W} :
    Ends (Assembler.finish env) (p, w) r (p', w') →
    (p'.HasFailedSince (drainedAt n steps) ∧ ∃ f, r = .error f) ∨
      ¬ p'.HasFailedSince (drainedAt n steps) ∧ r = .ok (handedOut steps)

/-- A client can rely on the promises after any operations, whoever takes the turns between them and
while it waits, and whatever the subject answers and the pool loses. -/
theorem Course.keeps_list (hf : env.schedule.Faithful) {extra : ε}
    (h : Course env steps ({ client := { extra := { extra } }, submitted := n }, w) (p, w')) :
    Promises env n steps p w' := by
  have hk : Kept n { extra := { extra } } steps p := h.kept hf (fun _ hj => by cases hj) .start
  have hsettled {q : Pool (Desk (Assembler ε))} {v : W} (hs : Run (env.settle p) w' q v) :
      q.client.extra.output = handedOut steps ∧
        (q.error.isSome = true ↔ q.HasFailedSince (drainedAt n steps)) ∧
        (q.error = none ↔ ¬ q.HasFailedSince (drainedAt n steps)) := by
    obtain ⟨-, hsame⟩ := hk.gentle.settle hf hs
    obtain ⟨-, -, herror⟩ := hk.watched.settle hf hs
    exact ⟨hsame.output.trans hk.output, herror, by rw [← herror, Option.not_isSome_iff_eq_none]⟩
  refine ⟨hk.output, hk.emits, fun {group r p' w''} hopen hclose => ?_, fun {more v} hmore => ?_,
    fun {r p' w''} hfinish => ?_⟩
  · have hlt : group < p.client.groups.length := by
      rw [hk.length_groups]
      exact Nat.lt_add_left _ hopen
    obtain ⟨q, g, hs, hg, hcases⟩ := close_cases hf hk.gentle hlt hclose
    obtain ⟨hout, hfailed, hfine⟩ := hsettled hs
    refine ⟨g, ?_⟩
    rcases hcases with ⟨f, he, rfl, rfl⟩ | ⟨he, hm, rfl, rfl⟩ | ⟨he, hm, rfl, rfl⟩
    · exact ⟨hg, Or.inl ⟨f, rfl, he, hfailed.1 (by rw [he]; rfl), hout⟩⟩
    · exact ⟨hg, Or.inr (Or.inl ⟨hfine.1 he, hm, rfl, hout⟩)⟩
    · exact ⟨hg, Or.inr (Or.inr ⟨hfine.1 he, hm, rfl, congrArg (· ++ [g.snapshot]) hout⟩)⟩
  · rw [(hmore.kept hf hk.gentle hk.watched).output]
    exact congrArg (· ++ handedOut more) hk.output
  · obtain ⟨q, hs, rfl, hcases⟩ := finish_cases hfinish
    obtain ⟨hout, hfailed, hfine⟩ := hsettled hs
    rcases hcases with ⟨f, he, rfl⟩ | ⟨he, rfl⟩
    · exact Or.inl ⟨hfailed.1 (by rw [he]; rfl), f, rfl⟩
    · exact Or.inr ⟨hfine.1 he, congrArg _ hout⟩

end

/-- The step that an operation makes with a subject that is a function. -/
def Step.of {ε : Type} (env : Setting (Desk (Assembler ε)) Id) (p : Pool (Desk (Assembler ε)))
    (op : Operation ε Id) : Step ε Id :=
  let t := Id.run ((perform env op).run p)
  { op, outcome := t.1, after := t.2 }

/-- With a subject that is a function, an operation that is allowed can be done. -/
theorem Course.step {ε : Type} {env : Setting (Desk (Assembler ε)) Id} {steps : List (Step ε Id)}
    {v : Pool (Desk (Assembler ε)) × Unit} {p : Pool (Desk (Assembler ε))}
    (h : Course env steps v (p, ())) (op : Operation ε Id)
    (hallowed : op.Allowed (W := Unit) p.client.groups.length) :
    Course env (steps ++ [Step.of env p op]) v ((Step.of env p op).after, ()) := by
  have hrun : Ends (perform env op) (p, ()) (Step.of env p op).outcome
    ((Step.of env p op).after, ()) := rfl
  exact .next h hallowed hrun

/-- Two groups are handed over and a call of the first is lost. The second is closed and the first
is not; once its other slot is filled by hand it is closed as well, and what is filled in after that
does not show. -/
theorem Course.twoGroups_keeps_list :
    let c : PreparedCase :=
      { tcId := .int 1, msg := [1, 2], functionName := [], customization := [], outLen := .int 16 }
    let env : Setting (Desk (Assembler Unit)) Id :=
      { subject := fun call => .ok (call.args.take 1)
        schedule := { release := List.reverse, lost := fun n => n == 1 } }
    let s₁ := Step.of env { client := { extra := { extra := () } } } (.openGroup (.int 7) 2)
    let s₂ := Step.of env s₁.after (.openGroup (.int 8) 1)
    let s₃ := Step.of env s₂.after (.dispatch (Text.ofString "x") 0 [c, c])
    let s₄ := Step.of env s₃.after (.dispatch (Text.ofString "x") 1 [c])
    let s₅ := Step.of env s₄.after (.close 1)
    let s₆ := Step.of env s₅.after (.close 0)
    let s₇ := Step.of env s₆.after (.fill 0 1 { tcId := .int 2 })
    let s₈ := Step.of env s₇.after (.close 0)
    let s₉ := Step.of env s₈.after (.fill 0 0 { tcId := .int 3 })
    let steps := [s₁, s₂, s₃, s₄, s₅, s₆, s₇, s₈, s₉]
    Promises env 0 steps s₉.after () ∧ handedOut steps =
      [{ tgId := .int 8, tests := [{ tcId := .int 1, md := "0102", outLen := .int 16 }] },
        { tgId := .int 7,
          tests := [{ tcId := .int 1, md := "0102", outLen := .int 16 }, { tcId := .int 2 }] }] := by
  intro c env s₁ s₂ s₃ s₄ s₅ s₆ s₇ s₈ s₉ steps
  have h₂ : Course env [s₁, s₂] _ (s₂.after, ()) :=
    ((Course.start (_, ())).step (.openGroup (.int 7) 2) trivial).step (.openGroup (.int 8) 1)
      trivial
  have h₃ := h₂.step (.dispatch (Text.ofString "x") 0 [c, c]) (by show 0 < _; decide +kernel)
  have h₄ := h₃.step (.dispatch (Text.ofString "x") 1 [c]) (by show 1 < _; decide +kernel)
  have h₅ := h₄.step (.close 1) (by show 1 < _; decide +kernel)
  have h₆ := h₅.step (.close 0) (by show 0 < _; decide +kernel)
  have h₇ := h₆.step (.fill 0 1 { tcId := .int 2 }) (by show 0 < _; decide +kernel)
  have h₈ := h₇.step (.close 0) (by show 0 < _; decide +kernel)
  have h₉ := h₈.step (.fill 0 0 { tcId := .int 3 }) (by show 0 < _; decide +kernel)
  have hp : Promises env 0 steps s₉.after () :=
    Course.keeps_list (fun jobs => List.reverse_perm jobs) h₉
  refine ⟨hp, ?_⟩
  decide +kernel

end Assembler

end XofConformance
