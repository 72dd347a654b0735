import XofConformance.Exchange.Pool

/-!
# Runs

What an effect can do, whatever it is an effect on: it starts in a world, gives a result and leaves
a world behind. A function has one run from each world, a relation may have several or none. All
statements about exchanges are statements about their runs, so they hold of a subject that is a
function, of one with a state, and of one that others talk to at the same time.

    Run (x >>= f) w b w'' ↔ ∃ a w', Run x w a w' ∧ Run (f a) w' b w''         (HasRuns.run_bind)
    Ends (x >>= f) w r w'' ↔ x fails with r, or gives an a from which f ends   (ends_bind)
-/

namespace XofConformance

/-- An effect whose runs are known. -/
class HasRuns (m : Type → Type) [Monad m] (W : outParam Type) where
  Run {α : Type} : m α → W → α → W → Prop
  run_pure {α : Type} {a b : α} {w w' : W} : Run (pure a) w b w' ↔ b = a ∧ w' = w
  run_bind {α β : Type} {x : m α} {f : α → m β} {w w'' : W} {b : β} :
    Run (x >>= f) w b w'' ↔ ∃ a w', Run x w a w' ∧ Run (f a) w' b w''

export HasRuns (Run run_pure run_bind)

instance : HasRuns Id Unit where
  Run x _ a _ := a = x
  run_pure := by intro α a b w w'; exact ⟨fun h => ⟨h, rfl⟩, fun h => h.1⟩
  run_bind := by
    intro α β x f w w'' b
    exact ⟨fun h => ⟨x, (), rfl, h⟩, fun ⟨a, _, ha, hb⟩ => by subst ha; exact hb⟩

/-- An effect on a world in which others take their steps as well: it may go several ways. -/
def Rel (W α : Type) : Type := W → α → W → Prop

instance {W : Type} : Monad (Rel W) where
  pure a := fun w b w' => b = a ∧ w' = w
  bind x f := fun w b w'' => ∃ a w', x w a w' ∧ f a w' b w''

instance {W : Type} : HasRuns (Rel W) W where
  Run x w a w' := x w a w'
  run_pure := Iff.rfl
  run_bind := Iff.rfl

instance {W : Type} : LawfulMonad (Rel W) := by
  refine LawfulMonad.mk' (Rel W) ?_ ?_ ?_
  · intro α x
    funext w a w'
    apply propext
    constructor
    · rintro ⟨b, v, hx, rfl, rfl⟩
      exact hx
    · intro hx
      exact ⟨a, w', hx, rfl, rfl⟩
  · intro α β a f
    funext w b w'
    apply propext
    constructor
    · rintro ⟨c, v, ⟨rfl, rfl⟩, hf⟩
      exact hf
    · intro hf
      exact ⟨a, w, ⟨rfl, rfl⟩, hf⟩
  · intro α β γ x f g
    funext w c w'
    apply propext
    constructor
    · rintro ⟨b, v, ⟨a, u, hx, hf⟩, hg⟩
      exact ⟨a, u, hx, b, v, hf, hg⟩
    · rintro ⟨a, u, hx, b, v, hf, hg⟩
      exact ⟨b, v, ⟨a, u, hx, hf⟩, hg⟩

section

variable {m : Type → Type} [Monad m] {W : Type} [HasRuns m W]

/-! ## A state on top -/

variable {S α β : Type}

instance : HasRuns (StateT S m) (S × W) where
  Run x w a w' := Run (x w.1) w.2 (a, w'.1) w'.2
  run_pure := by
    rintro α a b ⟨s, w⟩ ⟨s', w'⟩
    show Run (pure (a, s)) w (b, s') w' ↔ _
    rw [run_pure]
    simp only [Prod.mk.injEq, and_assoc]
  run_bind := by
    rintro α β x f ⟨s, w⟩ ⟨s'', w''⟩ b
    show Run (x s >>= fun a => f a.1 a.2) w (b, s'') w'' ↔ _
    rw [run_bind]
    constructor
    · rintro ⟨⟨a, s'⟩, w', hx, hf⟩
      exact ⟨a, (s', w'), hx, hf⟩
    · rintro ⟨a, ⟨s', w'⟩, hx, hf⟩
      exact ⟨(a, s'), w', hx, hf⟩

/-- The run of a function with a state. -/
theorem run_id (x : StateT S Id α) (s : S) :
    Run x (s, ()) (Id.run (x.run s)).1 ((Id.run (x.run s)).2, ()) := rfl

/-- The run of a function with two states. -/
theorem run_id_twice {T : Type} {x : StateT S (StateT T Id) α} {s : S} {t : T} {r : (α × S) × T}
    (h : r = Id.run ((x.run s).run t)) : Run x (s, (t, ())) r.1.1 (r.1.2, (r.2, ())) := by
  subst h
  rfl

theorem run_get {w w' : S × W} {a : S} :
    Run (get : StateT S m S) w a w' ↔ a = w.1 ∧ w' = w := by
  obtain ⟨s, w⟩ := w
  obtain ⟨s', w'⟩ := w'
  show Run (pure (s, s)) w (a, s') w' ↔ _
  rw [run_pure]
  simp only [Prod.mk.injEq, and_assoc]

theorem run_set {t : S} {w w' : S × W} {a : PUnit} :
    Run (set t : StateT S m PUnit) w a w' ↔ w' = (t, w.2) := by
  obtain ⟨s, w⟩ := w
  obtain ⟨s', w'⟩ := w'
  show Run (pure (PUnit.unit, t)) w (a, s') w' ↔ _
  rw [run_pure]
  simp only [Prod.mk.injEq, true_and]

theorem run_modify {f : S → S} {w w' : S × W} {a : PUnit} :
    Run (modify f : StateT S m PUnit) w a w' ↔ w' = (f w.1, w.2) := by
  obtain ⟨s, w⟩ := w
  obtain ⟨s', w'⟩ := w'
  show Run (pure (PUnit.unit, f s)) w (a, s') w' ↔ _
  rw [run_pure]
  simp only [Prod.mk.injEq, true_and]

theorem run_liftState {x : m α} {w w' : S × W} {a : α} :
    Run (StateT.lift x : StateT S m α) w a w' ↔ Run x w.2 a w'.2 ∧ w'.1 = w.1 := by
  obtain ⟨s, w⟩ := w
  obtain ⟨s', w'⟩ := w'
  show Run (x >>= fun a => pure (a, s)) w (a, s') w' ↔ _
  rw [run_bind]
  constructor
  · rintro ⟨b, v, hx, hp⟩
    obtain ⟨he, rfl⟩ := run_pure.1 hp
    simp only [Prod.mk.injEq] at he
    obtain ⟨rfl, rfl⟩ := he
    exact ⟨hx, rfl⟩
  · rintro ⟨hx, he⟩
    exact ⟨a, w', hx, run_pure.2 ⟨Prod.ext rfl he, rfl⟩⟩

/-! ## Faults on top -/

/-- What is said of a result: one thing of the value it is, another if it is a fault. -/
def Verdict (good : α → Prop) (bad : Prop) : Except Fault α → Prop
  | .ok a => good a
  | .error _ => bad

/-- An effect that may stop with a fault, tried from a world, ends with a result. -/
def Ends (x : ExceptT Fault m α) (w : W) (r : Except Fault α) (w' : W) : Prop := Run x.run w r w'

theorem ends_pure {a : α} {w w' : W} {r : Except Fault α} :
    Ends (pure a : ExceptT Fault m α) w r w' ↔ r = .ok a ∧ w' = w := run_pure

theorem ends_throw {f : Fault} {w w' : W} {r : Except Fault α} :
    Ends (throw f : ExceptT Fault m α) w r w' ↔ r = .error f ∧ w' = w := run_pure

theorem ends_liftExcept {x : Except Fault α} {w w' : W} {r : Except Fault α} :
    Ends (liftM x : ExceptT Fault m α) w r w' ↔ r = x ∧ w' = w := run_pure

theorem ends_bind {x : ExceptT Fault m α} {f : α → ExceptT Fault m β} {w w'' : W}
    {r : Except Fault β} :
    Ends (x >>= f) w r w'' ↔
      (∃ e, Ends x w (.error e) w'' ∧ r = .error e) ∨
      ∃ a w', Ends x w (.ok a) w' ∧ Ends (f a) w' r w'' := by
  show Run (x.run >>= ExceptT.bindCont f) w r w'' ↔ _
  rw [run_bind]
  constructor
  · rintro ⟨a, w', hx, hf⟩
    cases a with
    | error e =>
      obtain ⟨rfl, rfl⟩ := run_pure.1 hf
      exact Or.inl ⟨e, hx, rfl⟩
    | ok a => exact Or.inr ⟨a, w', hx, hf⟩
  · rintro (⟨e, hx, rfl⟩ | ⟨a, w', hx, hf⟩)
    · exact ⟨.error e, w'', hx, run_pure.2 ⟨rfl, rfl⟩⟩
    · exact ⟨.ok a, w', hx, hf⟩

theorem ends_liftExcept_bind {x : Except Fault α} {f : α → ExceptT Fault m β} {w w' : W}
    {r : Except Fault β} :
    Ends (liftM x >>= f) w r w' ↔
      (∃ e, x = .error e ∧ r = .error e ∧ w' = w) ∨ ∃ a, x = .ok a ∧ Ends (f a) w r w' := by
  rw [ends_bind]
  constructor
  · rintro (⟨e, he, hr⟩ | ⟨a, v, ha, hf⟩)
    · obtain ⟨hx, hw⟩ := ends_liftExcept.1 he
      exact Or.inl ⟨e, hx.symm, hr, hw⟩
    · obtain ⟨hx, rfl⟩ := ends_liftExcept.1 ha
      exact Or.inr ⟨a, hx.symm, hf⟩
  · rintro (⟨e, rfl, hr, rfl⟩ | ⟨a, rfl, hf⟩)
    · exact Or.inl ⟨e, ends_liftExcept.2 ⟨rfl, rfl⟩, hr⟩
    · exact Or.inr ⟨a, w, ends_liftExcept.2 ⟨rfl, rfl⟩, hf⟩

theorem ends_tryCatch {x : ExceptT Fault m α} {handle : Fault → ExceptT Fault m α} {w w'' : W}
    {r : Except Fault α} :
    Ends (tryCatch x handle) w r w'' ↔
      (∃ a, Ends x w (.ok a) w'' ∧ r = .ok a) ∨
      ∃ e w', Ends x w (.error e) w' ∧ Ends (handle e) w' r w'' := by
  show Run (x.run >>= _) w r w'' ↔ _
  rw [run_bind]
  constructor
  · rintro ⟨a, w', hx, hf⟩
    cases a with
    | ok a =>
      obtain ⟨rfl, rfl⟩ := run_pure.1 hf
      exact Or.inl ⟨a, hx, rfl⟩
    | error e => exact Or.inr ⟨e, w', hx, hf⟩
  · rintro (⟨a, hx, rfl⟩ | ⟨e, w', hx, hf⟩)
    · exact ⟨.ok a, w'', hx, run_pure.2 ⟨rfl, rfl⟩⟩
    · exact ⟨.error e, w', hx, hf⟩

theorem ends_fallible {x : m (Except Fault α)} {s s' : S} {w w' : W} {r : Except Fault α} :
    Ends (ExceptT.mk (liftM x) : ExceptT Fault (StateT S m) α) (s, w) r (s', w') ↔
      Run x w r w' ∧ s' = s :=
  run_liftState

variable [LawfulMonad m]

theorem run_map {x : m α} {f : α → β} {w w' : W} {b : β} :
    Run (f <$> x) w b w' ↔ ∃ a, Run x w a w' ∧ b = f a := by
  rw [map_eq_pure_bind, run_bind]
  constructor
  · rintro ⟨a, v, hx, hp⟩
    obtain ⟨rfl, rfl⟩ := run_pure.1 hp
    exact ⟨a, hx, rfl⟩
  · rintro ⟨a, hx, rfl⟩
    exact ⟨a, w', hx, run_pure.2 ⟨rfl, rfl⟩⟩

theorem ends_lift {x : m α} {w w' : W} {r : Except Fault α} :
    Ends (ExceptT.lift x) w r w' ↔ ∃ a, Run x w a w' ∧ r = .ok a := run_map

theorem ends_adapt {x : ExceptT Fault m α} {f : Fault → Fault} {w w' : W} {r : Except Fault α} :
    Ends (x.adapt f) w r w' ↔ ∃ q, Ends x w q w' ∧ r = q.mapError f := run_map

/-! ## Exchanges -/

section

variable {κ : Type} {p p' q : Pool κ} {w w' : W}

theorem ends_effect {x : m α} {r : Except Fault α} :
    Ends (liftM x : Exchange κ m α) (p, w) r (p', w') ↔
      ∃ a, Run x w a w' ∧ r = .ok a ∧ p' = p := by
  show Ends (ExceptT.lift (StateT.lift x)) (p, w) r (p', w') ↔ _
  rw [ends_lift]
  simp only [run_liftState]
  exact ⟨fun ⟨a, ⟨hx, hp⟩, hr⟩ => ⟨a, hx, hr, hp⟩, fun ⟨a, hx, hr, hp⟩ => ⟨a, ⟨hx, hp⟩, hr⟩⟩

theorem ends_get {r : Except Fault (Pool κ)} :
    Ends (get : Exchange κ m (Pool κ)) (p, w) r (p', w') ↔ r = .ok p ∧ p' = p ∧ w' = w := by
  show Ends (ExceptT.lift (get : StateT (Pool κ) m (Pool κ))) (p, w) r (p', w') ↔ _
  rw [ends_lift]
  simp only [run_get, Prod.mk.injEq]
  exact ⟨fun ⟨a, ⟨ha, hw⟩, hr⟩ => ⟨ha ▸ hr, hw⟩, fun ⟨hr, hw⟩ => ⟨p, ⟨rfl, hw⟩, hr⟩⟩

theorem ends_set {r : Except Fault PUnit} :
    Ends (set q : Exchange κ m PUnit) (p, w) r (p', w') ↔ r = .ok ⟨⟩ ∧ p' = q ∧ w' = w := by
  show Ends (ExceptT.lift (set q : StateT (Pool κ) m PUnit)) (p, w) r (p', w') ↔ _
  rw [ends_lift]
  simp only [run_set, Prod.mk.injEq]
  exact ⟨fun ⟨_, hw, hr⟩ => ⟨hr, hw⟩, fun ⟨hr, hw⟩ => ⟨⟨⟩, hw, hr⟩⟩

theorem ends_modify {f : Pool κ → Pool κ} {r : Except Fault PUnit} :
    Ends (modify f : Exchange κ m PUnit) (p, w) r (p', w') ↔ r = .ok ⟨⟩ ∧ p' = f p ∧ w' = w := by
  show Ends (ExceptT.lift (modify f : StateT (Pool κ) m PUnit)) (p, w) r (p', w') ↔ _
  rw [ends_lift]
  simp only [run_modify, Prod.mk.injEq]
  exact ⟨fun ⟨_, hw, hr⟩ => ⟨hr, hw⟩, fun ⟨hr, hw⟩ => ⟨⟨⟩, hw, hr⟩⟩

/-! Steps in front of the rest of an exchange. -/

variable {r : Except Fault β} {v : Pool κ × W}

theorem ends_effect_bind {x : m α} {f : α → Exchange κ m β} :
    Ends (liftM x >>= f) (p, w) r v ↔ ∃ a w', Run x w a w' ∧ Ends (f a) (p, w') r v := by
  obtain ⟨p', w''⟩ := v
  rw [ends_bind]
  constructor
  · rintro (⟨e, he, -⟩ | ⟨a, ⟨q, w'⟩, ha, hf⟩)
    · obtain ⟨a, -, hc, -⟩ := ends_effect.1 he
      cases hc
    · obtain ⟨b, hb, hc, rfl⟩ := ends_effect.1 ha
      cases hc
      exact ⟨a, w', hb, hf⟩
  · rintro ⟨a, w', ha, hf⟩
    exact Or.inr ⟨a, (p, w'), ends_effect.2 ⟨a, ha, rfl, rfl⟩, hf⟩

theorem ends_get_bind {f : Pool κ → Exchange κ m β} :
    Ends (get >>= f) (p, w) r v ↔ Ends (f p) (p, w) r v := by
  rw [ends_bind]
  constructor
  · rintro (⟨e, he, -⟩ | ⟨a, ⟨q, w'⟩, ha, hf⟩)
    · exact absurd (ends_get.1 he).1 (by simp)
    · obtain ⟨hq, rfl, rfl⟩ := ends_get.1 ha
      cases hq
      exact hf
  · intro h
    exact Or.inr ⟨p, (p, w), ends_get.2 ⟨rfl, rfl, rfl⟩, h⟩

theorem ends_set_bind {f : PUnit → Exchange κ m β} :
    Ends (set q >>= f) (p, w) r v ↔ Ends (f ⟨⟩) (q, w) r v := by
  rw [ends_bind]
  constructor
  · rintro (⟨e, he, -⟩ | ⟨⟨⟩, ⟨q', w'⟩, ha, hf⟩)
    · exact absurd (ends_set.1 he).1 (by simp)
    · obtain ⟨-, rfl, rfl⟩ := ends_set.1 ha
      exact hf
  · intro h
    exact Or.inr ⟨⟨⟩, (q, w), ends_set.2 ⟨rfl, rfl, rfl⟩, h⟩

end

end

end XofConformance
