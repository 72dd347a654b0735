import XofConformance.Proofs.Exchange.Operations
import XofConformance.Proofs.Lists

/-!
# What has happened to a call

The life of a call is what the history of the pool tells of it. A call is put to the subject once,
answered once, and its results are delivered once if the answer counts: every turn of a worker adds
the next step to the life of its call, and nothing to the life of any other.

    Lived env c deliver life progress → the next step extends the life        (Lived.advance)
-/

namespace XofConformance

variable {κ : Type} {m : Type → Type} [Monad m] {W : Type} [HasRuns m W] {env : Setting κ m}
  {p p' : Pool κ} {w w' : W}

/-! ## Lives -/

/-- The steps that the workers have taken for a call, in their order. -/
def Pool.life (p : Pool κ) (n : Nat) : List Progress :=
  ((p.history.filter fun e => e.1 == n).map (·.2)).reverse

/-- The failure that a step ends with. -/
def Progress.fault? : Progress → Option Fault
  | .ended fault => fault
  | _ => none

/-- The failure that a call has ended with. -/
def Pool.faultOf (p : Pool κ) (n : Nat) : Option Fault := (p.life n).findSome? Progress.fault?

/-- The steps of a call on its way, each with what the subject or the client did in it. A call that
has ended was put to the subject once and answered once, and its results were delivered once if
the answer counts, and never if it does not. -/
inductive Lived (env : Setting κ m) (c : Call) (deliver : List Bytes → κ → Except Fault κ) :
    List Progress → Progress → Prop
  | queued : Lived env c deliver [] .queued
  | posted {w w' : W} {t : Nat} : Run (env.put c) w t w' → Lived env c deliver [.posted t] (.posted t)
  | failed {w w' : W} {t : Nat} {o : Outcome} {f : Fault} :
    Lived env c deliver [.posted t] (.posted t) → Run (env.answer t c) w o w' →
    c.settle o = .error f →
    Lived env c deliver [.posted t, .ended (some f)] (.ended (some f))
  | answered {w w' : W} {t : Nat} {o : Outcome} {results : List Bytes} :
    Lived env c deliver [.posted t] (.posted t) → Run (env.answer t c) w o w' →
    c.settle o = .ok results →
    Lived env c deliver [.posted t, .answered results] (.answered results)
  | raised {t : Nat} {results : List Bytes} {client : κ} {f : Fault} :
    Lived env c deliver [.posted t, .answered results] (.answered results) →
    deliver results client = .error f →
    Lived env c deliver [.posted t, .answered results, .ended (some f.asFailure)]
      (.ended (some f.asFailure))
  | delivered {t : Nat} {results : List Bytes} {client client' : κ} :
    Lived env c deliver [.posted t, .answered results] (.answered results) →
    deliver results client = .ok client' →
    Lived env c deliver [.posted t, .answered results, .ended none] (.ended none)

/-- The next step of a call extends its life. -/
theorem Lived.advance {job : Job κ} {life : List Progress} {client client' : κ}
    {progress : Progress} (h : Lived env job.call job.deliver life job.progress)
    (he : job.hasEnded = false) (ha : Run (env.advance job client) w (progress, client') w') :
    Lived env job.call job.deliver (life ++ [progress]) progress := by
  rcases advance_cases ha with ⟨hp, -, t, ht, rfl⟩ | ⟨t, o, hp, -, ho, hr⟩ | ⟨rs, hp, -, hr⟩ |
    ⟨f, hp, -⟩
  · rw [hp] at h
    cases h
    exact .posted ht
  · rw [hp] at h
    cases h with
    | posted hput =>
      rcases hr with ⟨results, hs, rfl⟩ | ⟨f, hs, rfl⟩
      · exact .answered (.posted hput) ho hs
      · exact .failed (.posted hput) ho hs
  · rw [hp] at h
    cases h with
    | answered hput ho hs =>
      rcases hr with ⟨hd, rfl⟩ | ⟨f, hd, -, rfl⟩
      · exact .delivered (.answered hput ho hs) hd
      · exact .raised (.answered hput ho hs) hd
  · have hend := Job.hasEnded_iff.2 ⟨f, hp⟩
    rw [he] at hend
    cases hend

/-- The failure of a call that has ended is the one it has ended with. -/
theorem Lived.findSome?_fault {c : Call} {deliver : List Bytes → κ → Except Fault κ}
    {life : List Progress} {o : Option Fault} (h : Lived env c deliver life (.ended o)) :
    life.findSome? Progress.fault? = o := by
  cases h <;> rfl

theorem Job.fault?_eq (job : Job κ) : job.fault? = job.progress.fault? := by
  unfold Job.fault? Progress.fault?
  cases job.progress <;> rfl

/-! ## Turns and lives -/

theorem Pool.life_of_history {n : Nat} (h : ∀ e ∈ p.history, e.1 ≠ n) : p.life n = [] := by
  unfold Pool.life
  rw [List.filter_eq_nil_iff.2]
  · rfl
  · intro e he
    rw [beq_iff_eq]
    exact h e he

/-- A turn that is taken adds a step to the life of its call, and to no other. -/
theorem life_of_turn {n k : Nat} {progress : Progress}
    (h : p'.history = (k, progress) :: p.history) :
    p'.life n = if n = k then p.life n ++ [progress] else p.life n := by
  unfold Pool.life
  rw [h]
  by_cases hn : n = k
  · subst hn
    rw [List.filter_cons_of_pos (by simp), if_pos rfl, List.map_cons, List.reverse_cons]
  · rw [List.filter_cons_of_neg (by simpa using Ne.symm hn), if_neg hn]

end XofConformance
