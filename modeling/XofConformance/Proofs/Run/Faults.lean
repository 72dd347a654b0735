import XofConformance.Proofs.Run.Drained
import XofConformance.Proofs.Run.Stateless

/-!
# The fault that a run stops with

When the subject has no state, the fault of a run does not depend on who takes the turns, nor on
what the pool was used for before: it is the fault of the first group that has one, and in a
functional group that of the first call in the order of release. So sources that are run one after
the other on one pool come to what each of them comes to on a pool of its own.

    no call of the run is lost → faultOf r = s.fault? f order algorithm       (run_fault)
-/

namespace XofConformance

/-! ## Algorithm -/

/-- The order in which the calls of a group are released: as they were handed over, or reversed. -/
inductive Order
  | forward
  | backward
  deriving DecidableEq

/-- A list in an order of release. -/
def Order.arrange {α : Type} : Order → List α → List α
  | .forward, l => l
  | .backward, l => l.reverse

/-- The fault that a result is. -/
def faultOf {α : Type} : Except Fault α → Option Fault
  | .ok _ => none
  | .error f => some f

/-- The first fault of calls in an order. -/
def Functional.callsFault? (f : Answering) (order : Order) (calls : List Call) : Option Fault :=
  (order.arrange calls).findSome? fun c => faultOf (c.settle (f c.op c.args))

/-- The fault of a functional group: a case without a call comes before all calls that fail. -/
def Functional.fault? (f : Answering) (order : Order) (algorithm : Text)
    (cases : List PreparedCase) : Option Fault :=
  match calls algorithm cases with
  | .error e => some e
  | .ok calls => callsFault? f order calls

/-- The fault of a Monte Carlo group: that of the first chain that breaks. -/
def MonteCarlo.fault? (f : Answering) (algorithm : Text) (bounds : Bounds)
    (cases : List PreparedCase) : Option Fault :=
  cases.findSome? fun c =>
    faultOf (Id.run (runCase (fun call => f call.op call.args) algorithm bounds c).run)

/-- The fault of a group. -/
def PreparedGroup.fault? (f : Answering) (order : Order) (algorithm : Text) (g : PreparedGroup) :
    Option Fault :=
  match g.testType with
  | .functional => Functional.fault? f order algorithm g.cases
  | .monteCarlo => MonteCarlo.fault? f algorithm g.bounds g.cases

/-- The fault of a source: why it gives no groups, or that of the first group that has one. -/
def Source.fault? (f : Answering) (order : Order) (algorithm : Text) (s : Source) : Option Fault :=
  match s.prepare with
  | .error e => some e
  | .ok groups => groups.findSome? fun g => g.fault? f order algorithm

/-! ## Lemmas -/

section

variable {α β : Type}

theorem Order.arrange_perm (order : Order) (l : List α) : (order.arrange l).Perm l := by
  cases order with
  | forward => exact .refl l
  | backward => exact List.reverse_perm l

theorem Order.map_arrange (order : Order) (g : α → β) (l : List α) :
    (order.arrange l).map g = order.arrange (l.map g) := by
  cases order with
  | forward => rfl
  | backward => exact List.map_reverse

theorem faultOf_map (q : Except Fault α) (g : α → β) : faultOf (q.map g) = faultOf q := by
  cases q <;> rfl

/-- A result is known by its value and its fault. -/
theorem eq_of_faultOf_eq {q q' : Except Fault α} (hvalue : q.toOption = q'.toOption)
    (hfault : faultOf q = faultOf q') : q = q' := by
  cases q with
  | ok a =>
    cases q' with
    | ok a' =>
      cases hvalue
      rfl
    | error e' => cases hvalue
  | error e =>
    cases q' with
    | ok a' => cases hvalue
    | error e' =>
      cases hfault
      rfl

end

theorem Schedule.faithful_of_order {κ : Type} {schedule : Schedule κ} {order : Order}
    (h : schedule.release = order.arrange) : schedule.Faithful := by
  intro jobs
  rw [h]
  exact order.arrange_perm jobs

/-! ## Functional groups -/

namespace Functional

variable {ε : Type} {f : Answering} {schedule : Schedule (Desk ε)} {order : Order}
  {p p' : Pool (Desk ε)} {algorithm : Text} {cs : List Call}

/-- A call that has ended has the fault that the function makes of it. -/
theorem Batch.Reached.fault?_eq {b : Batch} {g : OpenGroup} {i : Nat} {job : Job (Desk ε)}
    (hb : b.Holds (Account.stateless f schedule) g p ())
    (h : Batch.Reached (.ofFunction f) () g.slots i job) (hasks : b.Asks i job)
    (he : job.hasEnded = true) :
    job.fault? = faultOf (job.call.settle (f job.call.op job.call.args)) := by
  cases hf : job.fault? with
  | some e =>
    unfold Job.fault? at hf
    split at hf
    · next fault hp =>
      cases hf
      rw [Batch.Reached, hp] at h
      obtain ⟨o, ho, hs⟩ := h
      have hans : o = f job.call.op job.call.args := ho
      rw [← hans, hs]
      rfl
    · cases hf
  | none =>
    obtain ⟨r, hr⟩ := h.filled he hf
    obtain ⟨⟨c', hc', args', results, ha', hg', hn, -⟩, -⟩ := hb.filled hr
    obtain ⟨c, args, hc, ha, -, hcall, -⟩ := hasks
    rw [hc] at hc'
    cases hc'
    rw [ha] at ha'
    cases ha'
    have hans : Except.ok results = f job.call.op job.call.args := by
      rw [hcall]
      exact hg'
    have hsettle : job.call.settle (f job.call.op job.call.args) = .ok results := by
      rw [Call.settle_eq_ok_iff, hcall]
      refine ⟨?_, by rw [hn]; rfl⟩
      rw [← hcall]
      exact hans.symm
    rw [hsettle]
    rfl

/-- The failure that counts, once the calls of a group have been waited for. -/
theorem settle_fault {b : Batch} {g : OpenGroup}
    (hrelease : schedule.release = order.arrange)
    (hb : b.Holds (Account.stateless f schedule) g p ()) (he : p.error = none)
    (hcalls : p.waiting.map Job.call = cs)
    (hs : Run ((Setting.stateless f schedule).settle p) () p' ()) :
    p'.error = callsFault? f order cs := by
  have hf : (Setting.stateless f schedule).schedule.Faithful := Schedule.faithful_of_order hrelease
  obtain ⟨g', q, hg, hend, hsame, rfl⟩ := Batch.settle_holds hf hb hs
  have hreleased : q.waiting.map Job.call = order.arrange cs := by
    rw [hsame.map_eq fun _ _ => rfl, ← hcalls, ← order.map_arrange, ← hrelease]
    rfl
  have herror : q.joined.error = q.waiting.findSome? Job.fault? := by
    show (q.error <|> _) = _
    rw [hsame.error, show ({ p with waiting := _ } : Pool (Desk ε)).error = none from he]
    rfl
  rw [herror, callsFault?, ← hreleased, List.findSome?_map]
  apply findSome?_congr
  intro job hj
  obtain ⟨i, hasks, hreach, -⟩ := hg.jobs job hj
  exact hreach.fault?_eq hg hasks (hend job hj)

/-- A functional group stops with its fault, and not without one. -/
theorem ends_group_fault {g : PreparedGroup} {q : Except Fault GroupResponse}
    (hrelease : schedule.release = order.arrange) (hlost : ∀ n, schedule.lost n = false)
    (hp : p.IsIdle)
    (h : Ends (do
        submit (.stateless f schedule) algorithm g.cases p.client.groups.length
        Desk.closeGroup (.stateless f schedule) p.client.groups.length)
      (Desk.opened g.tgId g.cases.length p, ()) q (p', ())) :
    faultOf q = fault? f order algorithm g.cases := by
  have hf : (Setting.stateless f schedule).schedule.Faithful := Schedule.faithful_of_order hrelease
  have hclosed := PreparedGroup.ends_functional (A := Account.stateless f schedule) hf hp.1 hp.2
    trivial h
  unfold fault?
  rcases ends_bind.1 h with ⟨e, hsub, rfl⟩ | ⟨⟨⟩, ⟨p₁, ⟨⟩⟩, hsub, hclose⟩
  · have hcalls := submit_calls hlost hp.1 hsub
    cases hcs : calls algorithm g.cases with
    | error e' =>
      rw [hcs] at hcalls
      cases hcalls
      rfl
    | ok cs =>
      rw [hcs] at hcalls
      cases hcalls.1
  have hcalls := submit_calls hlost hp.1 hsub
  cases hcs : calls algorithm g.cases with
  | error e' =>
    rw [hcs] at hcalls
    cases hcalls
  | ok cs =>
    rw [hcs] at hcalls
    obtain ⟨-, herror, hopen, k, hh, -⟩ := submit_handed hp.1 hsub
    have hholds := hh.holds (A := Account.stateless f schedule) (w := ()) trivial hopen
    obtain ⟨p₂, ⟨⟩, hs, hrest⟩ := ends_checkpoint.1 hclose
    have hfault := settle_fault hrelease hholds (herror.trans hp.2) hcalls.2 hs
    rcases hrest with ⟨e, he, rfl, -⟩ | ⟨hnone, -⟩
    · exact he.symm.trans hfault
    · rw [hnone] at hfault
      cases q with
      | ok r => exact hfault
      | error e =>
        -- no call has failed, so no slot is empty
        obtain ⟨-, -, -, hbad⟩ := hclosed
        exfalso
        rcases hbad with ⟨c, hc, hfail⟩ | ⟨n, -, -, hn⟩
        · obtain ⟨args, ha, hm⟩ := mem_calls hcs hc
          rcases hfail with ⟨e', he'⟩ | ⟨args', o, e', ha', hg, hsettle⟩
          · rw [ha] at he'
            cases he'
          · rw [ha] at ha'
            cases ha'
            have hall := List.findSome?_eq_none_iff.1 hfault.symm _
              ((order.arrange_perm cs).mem_iff.2 hm)
            have hans : o = f algorithm args := hg
            rw [show f (call algorithm args).op (call algorithm args).args = o from hans.symm,
              hsettle] at hall
            cases hall
        · rw [show (Setting.stateless f schedule).schedule.lost n = false from hlost n] at hn
          cases hn

end Functional

/-! ## Monte Carlo groups -/

namespace MonteCarlo

variable {ε : Type} {f : Answering} {schedule : Schedule (Desk ε)} {p p' : Pool (Desk ε)}
  {algorithm : Text} {bounds : Bounds}

/-- Filling the slots of a group stops with the fault of the first chain that breaks. -/
theorem fillFrom_fault {group index : Nat} {cases : List PreparedCase} {q : Except Fault Unit}
    (hopen : ∃ g, p.client.groups[group]? = some g ∧ index + cases.length ≤ g.slots.length)
    (h : Ends (fillFrom (.stateless f schedule) algorithm bounds group index cases) (p, ()) q
      (p', ())) :
    faultOf q = fault? f algorithm bounds cases := by
  induction cases generalizing index p with
  | nil =>
    obtain ⟨rfl, -⟩ := ends_pure.1 h
    rfl
  | cons c rest ih =>
    obtain ⟨g, hg, hlength⟩ := hopen
    rw [List.length_cons] at hlength
    unfold fault?
    rw [List.findSome?_cons]
    rcases ends_fillFrom_cons hg (by omega) h with ⟨e, hcase, -, rfl⟩ | ⟨r, ⟨⟩, hcase, hrest⟩
    · have hcase' : Except.error e =
        Id.run (runCase (fun call => f call.op call.args) algorithm bounds c).run := hcase
      rw [← hcase']
      rfl
    · have hcase' : Except.ok r =
        Id.run (runCase (fun call => f call.op call.args) algorithm bounds c).run := hcase
      rw [← hcase']
      refine ih ⟨_, Desk.getElem?_set_group hg, ?_⟩ hrest
      rw [List.length_set]
      omega

end MonteCarlo

/-! ## Groups -/

namespace PreparedGroup

variable {ε : Type} {f : Answering} {schedule : Schedule (Desk ε)} {order : Order}
  {p p' : Pool (Desk ε)} {algorithm : Text}

/-- A group stops with its fault, and not without one. -/
theorem run_fault {g : PreparedGroup} {q : Except Fault GroupResponse}
    (hrelease : schedule.release = order.arrange) (hlost : ∀ n, schedule.lost n = false)
    (hp : p.IsIdle) (h : Ends (g.run (.stateless f schedule) algorithm) (p, ()) q (p', ())) :
    faultOf q = g.fault? f order algorithm := by
  unfold run at h
  unfold fault?
  rcases ends_bind.1 h with ⟨e, ho, -⟩ | ⟨group, ⟨p₁, ⟨⟩⟩, ho, hrest⟩
  · cases (Desk.ends_openGroup.1 ho).1
  obtain ⟨hgroup, rfl, -⟩ := Desk.ends_openGroup.1 ho
  cases hgroup
  cases ht : g.testType with
  | functional =>
    rw [ht] at hrest
    exact Functional.ends_group_fault hrelease hlost hp hrest
  | monteCarlo =>
    rw [ht] at hrest
    obtain ⟨-, -, -, hfill, -⟩ := ends_monteCarlo (A := Account.stateless f schedule)
      (Schedule.faithful_of_order hrelease) hp trivial hrest
    rw [← faultOf_map q fun _ => ()]
    exact MonteCarlo.fillFrom_fault Desk.exists_opened hfill

/-- Groups stop with the fault of the first one that has one. -/
theorem runAll_fault {groups : List PreparedGroup} {q : Except Fault (List GroupResponse)}
    (hrelease : schedule.release = order.arrange) (hlost : ∀ n, schedule.lost n = false)
    (hp : p.IsIdle)
    (h : Ends (runAll (.stateless f schedule) algorithm groups) (p, ()) q (p', ())) :
    faultOf q = groups.findSome? fun g => g.fault? f order algorithm := by
  have hf : (Setting.stateless f schedule).schedule.Faithful := Schedule.faithful_of_order hrelease
  induction groups generalizing p p' q with
  | nil =>
    obtain ⟨rfl, -⟩ := ends_pure.1 h
    rfl
  | cons g rest ih =>
    rw [List.findSome?_cons]
    rcases ends_runAll_cons h with ⟨e, hg, rfl⟩ | ⟨r, p₁, ⟨⟩, others, hg, hall, rfl⟩
    · rw [← run_fault hrelease hlost hp hg]
      rfl
    · obtain ⟨-, -, -, hidle, -⟩ := ends_run (A := Account.stateless f schedule) hf hp trivial hg
      rw [← run_fault hrelease hlost hp hg, faultOf_map]
      exact ih hidle hall

/-- Draining in the end changes nothing about the fault. -/
theorem runDrained_fault {groups : List PreparedGroup} {q : Except Fault (List GroupResponse)}
    (hrelease : schedule.release = order.arrange) (hlost : ∀ n, schedule.lost n = false)
    (hp : p.IsIdle)
    (h : Ends (runDrained (.stateless f schedule) algorithm groups) (p, ()) q (p', ())) :
    faultOf q = groups.findSome? fun g => g.fault? f order algorithm := by
  have hf : (Setting.stateless f schedule).schedule.Faithful := Schedule.faithful_of_order hrelease
  obtain ⟨outcome, p₁, ⟨⟩, r, hall, hdrain, rfl⟩ := ends_runDrained_cases h
  rw [← runAll_fault hrelease hlost hp hall]
  cases outcome with
  | error e => rfl
  | ok responses =>
    obtain ⟨-, -, -, -, hidle⟩ :=
      ends_runAll (A := Account.stateless f schedule) hf hp trivial hall
    obtain ⟨rfl, -⟩ := drain_of_idle hf (hidle rfl) hdrain
    rfl

end PreparedGroup

/-! ## Sources -/

namespace Source

variable {ε : Type} {f : Answering} {schedule : Schedule (Desk ε)} {order : Order}
  {p p' : Pool (Desk ε)} {algorithm : Text} {s : Source}

/-- A source stops with its fault, and not without one. -/
theorem run_fault {q : Except Fault (List GroupResponse)}
    (hrelease : schedule.release = order.arrange) (hlost : ∀ n, schedule.lost n = false)
    (hp : p.IsIdle)
    (h : Ends (s.run (.stateless f schedule) algorithm) (p, ()) q (p', ())) :
    faultOf q = s.fault? f order algorithm := by
  unfold fault?
  rcases ends_run.1 h with ⟨e, hprep, rfl, -⟩ | ⟨groups, hprep, hrun⟩
  · rw [hprep]
    rfl
  · rw [hprep]
    exact PreparedGroup.runDrained_fault hrelease hlost hp hrun

end Source

end XofConformance
