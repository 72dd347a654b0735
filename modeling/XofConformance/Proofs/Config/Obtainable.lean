import XofConformance.Proofs.Config.Variables

/-!
# Settings that can be obtained

What holds of settings however they come about: from a mapping, an environment or a file, one over
the other any number of times. Whatever loader makes values of files, exactly the sound settings
can be obtained; the time of sound settings is more than zero or, since a NaN is not zero or less,
a NaN.

    Obtainable loader c ↔ c.Sound                                        (obtainable_iff_sound)
-/

namespace XofConformance.Config

variable {c : Config} {l : Layer} {es : Entries} {env : Environment} {loader : Loader}
  {file : Option File}

/-- The settings that mappings, environments and files lead to. What a command line says is a
mapping as well. -/
inductive Obtainable (loader : Loader) : Config → Prop
  | standard : Obtainable loader standard
  | override {c c' : Config} {entries : Entries} :
    Obtainable loader c → c.override entries = .ok c' → Obtainable loader c'
  | ofEnvironment {c c' : Config} {env : Environment} :
    Obtainable loader c → c.ofEnvironment env = .ok c' → Obtainable loader c'
  | load {file : Option File} {env : Environment} {c : Config} :
    load file env loader = .ok c → Obtainable loader c

/-- There is an actor and somebody to ask it, and the time is one. -/
structure Sound (c : Config) : Prop where
  actor : c.actor ≠ []
  workers : 1 ≤ c.workers
  timeoutSecs : IsTime c.timeoutSecs

/-! ## Layers -/

/-- What the layer says is sound. -/
structure Layer.Sound (l : Layer) : Prop where
  actor : ∀ t, l.actor = some t → t ≠ []
  workers : ∀ n, l.workers = some n → 1 ≤ n
  timeoutSecs : ∀ x, l.timeoutSecs = some x → IsTime x

/-- A property of what was said and of what holds otherwise. -/
theorem getD_of_forall {α : Type} {P : α → Prop} {o : Option α} {a : α}
    (ho : ∀ b, o = some b → P b) (ha : P a) : P (o.getD a) := by
  cases o with
  | none => exact ha
  | some b => exact ho b rfl

theorem Sound.under (h : c.Sound) (hl : l.Sound) : (c.under l).Sound where
  actor := getD_of_forall hl.actor h.actor
  workers := getD_of_forall hl.workers h.workers
  timeoutSecs := getD_of_forall hl.timeoutSecs h.timeoutSecs

/-- What is read is what the relation allows. -/
theorem forall_of_rel {α β : Type} {R : α → β → Prop} {P : β → Prop} {o : Option α}
    {r : Option β} (h : Option.Rel R o r) (hP : ∀ a b, R a b → P b) : ∀ b, r = some b → P b := by
  rintro b rfl
  cases h with
  | some hr => exact hP _ _ hr

theorem Layer.SaidBy.sound (h : l.SaidBy es) : l.Sound where
  actor := forall_of_rel h.actor fun _ _ hnames => hnames.2
  workers := forall_of_rel h.workers fun _ _ hcounts => hcounts.2
  timeoutSecs := forall_of_rel h.timeoutSecs fun _ _ hlimits => hlimits.isTime

theorem Layer.SpelledBy.sound (h : l.SpelledBy env) : l.Sound where
  actor := by
    rintro t ht rfl
    rw [h.actor] at ht
    cases (Option.mem_filter_iff.1 ht).2
  workers := forall_of_rel h.workers fun _ _ hspells => hspells.2
  timeoutSecs := forall_of_rel h.timeoutSecs fun _ _ hspells => hspells.2

theorem Layer.ReadFrom.sound (h : l.ReadFrom loader file) : l.Sound := by
  cases h with
  | none => exact { actor := nofun, workers := nofun, timeoutSecs := nofun }
  | some _ hl => exact hl.sound

/-! ## Settings -/

theorem sound_standard : standard.Sound where
  actor := by decide
  workers := by decide
  timeoutSecs := Or.inr rfl

/-- The mapping that says all of the settings. -/
def entries (c : Config) : Entries :=
  entriesOf (some (.scalar (.text c.actor)))
    (some (.list (c.actorArgs.map fun t => .scalar (.text t))))
    (some (.scalar (.number (.int c.workers))))
    (some (.scalar (.number (.float c.timeoutSecs))))

/-- Sound settings are read back from the mapping that says them, whatever they lie over. -/
theorem override_entries (h : c.Sound) (b : Config) : b.override c.entries = .ok c := by
  refine override_eq_ok_iff.2 ⟨{
    actor := some c.actor
    actorArgs := some c.actorArgs
    workers := some c.workers
    timeoutSecs := some c.timeoutSecs }, ?_, rfl⟩
  exact saidBy_entriesOf_iff.2 ⟨.some ⟨rfl, h.actor⟩, .some (.list _), .some ⟨rfl, h.workers⟩,
    .some (.float h.timeoutSecs)⟩

/-- **Settings are sound**: the settings that can be obtained are those with an actor, at least one
worker, and a time that is more than zero or a NaN. -/
theorem obtainable_iff_sound : Obtainable loader c ↔ c.Sound := by
  constructor
  · intro h
    induction h with
    | standard => exact sound_standard
    | override _ hover ih =>
      obtain ⟨l, hl, rfl⟩ := override_eq_ok_iff.1 hover
      exact ih.under hl.sound
    | ofEnvironment _ henv ih =>
      obtain ⟨l, hl, rfl⟩ := ofEnvironment_eq_ok_iff.1 henv
      exact ih.under hl.sound
    | load hload =>
      obtain ⟨l, m, hl, hm, rfl⟩ := load_eq_ok_iff.1 hload
      exact (sound_standard.under hl.sound).under hm.sound
  · intro h
    exact .override .standard (override_entries h standard)

/-- An environment can spell a NaN, which is not more than zero. -/
theorem not_forall_obtainable_positive :
    ¬ ∀ c, Obtainable Yaml.Value.ofText c → (Number.float c.timeoutSecs).IsPositive := by
  intro h
  have hspelled : Option.Rel SpellsTime (some (Text.ofString "nan")) (some .nan) :=
    .some ⟨by decide, Or.inl rfl⟩
  have hnan : standard.ofEnvironment [("XOFV_TIMEOUT_SECS", "nan")] =
      .ok (standard.under { timeoutSecs := some .nan }) :=
    ofEnvironment_eq_ok_iff.2 ⟨{ timeoutSecs := some .nan }, {
      actor := rfl
      actorArgs := .none
      workers := .none
      timeoutSecs := hspelled }, rfl⟩
  cases h _ (.ofEnvironment .standard hnan)

end XofConformance.Config
