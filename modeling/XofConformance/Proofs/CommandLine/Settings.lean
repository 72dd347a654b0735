import XofConformance.Proofs.CommandLine.Reporting
import XofConformance.Proofs.Config.Merging

/-!
# Where settings come from

A run that has got past its configuration has taken each setting from the command line, else from
the environment, else from the file, and else from what holds where nothing is said; which of them
a setting is taken from does not depend on the other settings. What a file says is what the loader
of the host makes of it.

    c.workers = (k.workers <|> e.workers <|> l.workers).getD standard.workers    (settings_layered)
-/

namespace XofConformance.CommandLine

open Yaml (Value)
open Config (Layer SpellsWorkers)

/-! ## Arguments -/

section

variable {g g' : Given} {words : List Word} {arguments : List Text} {o : Options}

/-- The values that are given for the number of workers are integers. -/
def Given.Readable (g : Given) : Prop :=
  ∀ t, (Flag.workers, t) ∈ g.values → (Number.readInt? t).isSome = true

theorem Given.Readable.add {f : Flag} {value : Text} (hg : g.Readable)
    (h : g.add f value = .ok g') : g'.Readable := by
  unfold Given.add at h
  split at h
  · cases h
  · next hvalue =>
    cases h
    intro t ht
    rcases List.mem_cons.1 ht with he | ht
    · cases he
      rw [Option.isSome_iff_ne_none]
      exact fun hnone => hvalue ⟨rfl, by rw [hnone]; rfl⟩
    · exact hg t ht

theorem Given.Readable.isSome_readInt? {t : Text} (hg : g.Readable)
    (ht : g.value? .workers = some t) : (Number.readInt? t).isSome = true := by
  obtain ⟨before, after, hvalues, -⟩ := List.lookup_eq_some_iff.1 ht
  exact hg t (by rw [hvalues]; exact List.mem_append_right _ List.mem_cons_self)

/-- Obeying words keeps it so, since each value is looked at when it is given. -/
theorem Given.Readable.take (hg : g.Readable) (h : g.take words = .ok g') : g'.Readable := by
  fun_induction Given.take g words with
  | case1 g =>
    cases h
    exact hg
  | case2 => cases h
  | case3 => cases h
  | case4 g f value rest _ ih =>
    obtain ⟨g₁, hadd, h⟩ := exists_of_bind_eq_ok h
    exact ih g₁ (hg.add hadd) h
  | case5 g f value rest _ ih =>
    obtain ⟨g₁, hadd, h⟩ := exists_of_bind_eq_ok h
    exact ih g₁ (hg.add hadd) h
  | case6 => cases h
  | case7 g _ rest _ _ _ _ _ ih => exact ih hg h

/-- What the command line says about the settings: an empty actor does not count, and any number
of workers does. -/
structure GivenBy (g : Given) (k : Layer) : Prop where
  actor : k.actor = g.filled? .actor
  actorArgs : k.actorArgs = none
  workers : Option.Rel SpellsWorkers (g.value? .workers) k.workers
  timeoutSecs : k.timeoutSecs = none

/-- The settings that options hold. -/
def Options.layer (o : Options) : Layer := { actor := o.actor, workers := o.workers }

theorem Options.settings_eq : o.settings =
    Config.entriesOf (o.actor.map fun t => .scalar (.text t)) none
      (o.workers.map fun n => .scalar (.number (.int n))) none := by
  unfold Options.settings
  cases o.actor <;> cases o.workers <;> rfl

theorem eq_of_rel_map {α : Type} {R : Value → α → Prop} {value : α → Value} {x y : Option α}
    (h : Option.Rel R (x.map value) y) (hR : ∀ a b, R (value a) b → b = a) : y = x := by
  cases x with
  | none =>
    cases h
    rfl
  | some a =>
    cases h with
    | some hr => exact congrArg some (hR _ _ hr)

theorem eq_of_namesActor {s t : Text} (h : Config.NamesActor (.scalar (.text s)) t) : t = s := by
  obtain ⟨he, -⟩ := h
  cases he
  rfl

theorem eq_of_countsWorkers {k n : Int}
    (h : Config.CountsWorkers (.scalar (.number (.int k))) n) : n = k := by
  obtain ⟨he, -⟩ := h
  cases he
  rfl

/-- What the settings of options say is what they hold. -/
theorem Options.eq_layer {k : Layer} (h : k.SaidBy o.settings) : k = o.layer := by
  rw [Options.settings_eq] at h
  obtain ⟨hactor, hargs, hworkers, htime⟩ := Config.saidBy_entriesOf_iff.1 h
  have ha := eq_of_rel_map hactor fun _ _ => eq_of_namesActor
  have hn := eq_of_rel_map hworkers fun _ _ => eq_of_countsWorkers
  obtain ⟨a, b, n, x⟩ := k
  cases ha
  cases hn
  cases hargs
  cases htime
  rfl

/-- The settings of options that are told by a command line are what it says. -/
theorem Options.givenBy_layer (hactor : o.actor = g.filled? .actor)
    (hworkers : o.workers = (g.value? .workers).bind Number.readInt?) (hg : g.Readable)
    (h : o.layer.SaidBy o.settings) : GivenBy g o.layer where
  actor := hactor
  actorArgs := rfl
  workers := by
    show Option.Rel SpellsWorkers (g.value? .workers) o.workers
    rw [Options.settings_eq] at h
    have hsaid := (Config.saidBy_entriesOf_iff.1 h).2.2.1
    cases ht : g.value? .workers with
    | none =>
      rw [ht] at hworkers
      rw [hworkers]
      exact .none
    | some t =>
      obtain ⟨n, hn⟩ := Option.isSome_iff_exists.1 (hg.isSome_readInt? ht)
      have hgiven : o.workers = some n := by rw [hworkers, ht, Option.bind_some, hn]
      rw [Options.layer, hgiven] at hsaid
      rw [hgiven]
      cases hsaid with
      | some hcounts => exact .some ⟨hn, hcounts.2⟩
  timeoutSecs := rfl

/-- The options of a command line come from the values that it gives. -/
theorem given_of_ofArguments (h : Options.ofArguments arguments = .ok o) :
    ∃ g, (readWords arguments >>= Given.take {}) = .ok g ∧ g.Readable ∧
      o.actor = g.filled? .actor ∧ o.workers = (g.value? .workers).bind Number.readInt? := by
  obtain ⟨words, hwords, h⟩ := exists_of_bind_eq_ok h
  obtain ⟨g, hg, h⟩ := exists_of_bind_eq_ok h
  have hnothing : Given.Readable {} := fun t ht => nomatch ht
  refine ⟨g, ?_, hnothing.take hg, ?_⟩
  · rw [hwords]
    exact hg
  · split at h
    · cases h
    · split at h
      · cases h
      · cases h
        exact ⟨rfl, rfl⟩

end

/-! ## Layers -/

/-- Each setting is the one of the first layer that says something about it, and the standard one
if none does. -/
structure TakenFrom (k e l : Layer) (c : Config) : Prop where
  actor : c.actor = (k.actor <|> e.actor <|> l.actor).getD Config.standard.actor
  actorArgs : c.actorArgs = (k.actorArgs <|> e.actorArgs <|> l.actorArgs).getD
    Config.standard.actorArgs
  workers : c.workers = (k.workers <|> e.workers <|> l.workers).getD Config.standard.workers
  timeoutSecs : c.timeoutSecs = (k.timeoutSecs <|> e.timeoutSecs <|> l.timeoutSecs).getD
    Config.standard.timeoutSecs

theorem getD_getD_getD {α : Type} {x y z : Option α} {a : α} :
    x.getD (y.getD (z.getD a)) = (x <|> y <|> z).getD a := by
  cases x <;> cases y <;> rfl

theorem takenFrom_under {k e l : Layer} :
    TakenFrom k e l (((Config.standard.under l).under e).under k) where
  actor := getD_getD_getD
  actorArgs := getD_getD_getD
  workers := getD_getD_getD
  timeoutSecs := getD_getD_getD

section

variable {m : Type → Type} [Monad m] [LawfulMonad m] {W : Type} [HasRuns m W]

/-- **Settings come in layers**: mappings that are taken one after the other may be laid over each
other key by key; and a run that has got past its configuration has each of its settings from the
command line, else from the environment, else from the file, else the standard one. -/
theorem settings_layered (host : Host m) :
    (∀ (b c : Config) (m₁ m₂ n : Config.Entries), Config.IsOverlay m₁ m₂ n →
      (b.override m₁ >>= fun c => c.override m₂) = .ok c → b.override n = .ok c) ∧
    ∀ (arguments : List Text) (o : Options) (facts : Facts) (w : W) (c : Config) (v : Facts × W),
      Options.ofArguments arguments = .ok o → Ends (configure host o) (facts, w) (.ok c) v →
      ∃ g k file env w' l e, (readWords arguments >>= Given.take {}) = .ok g ∧ GivenBy g k ∧
        o.ReadsFile host w file w' ∧ Run host.environment w' env v.2 ∧
        Layer.ReadFrom host.loader file l ∧ Layer.SpelledBy env e ∧ TakenFrom k e l c := by
  refine ⟨fun _ _ _ _ _ => Config.override_of_overrides, fun arguments o facts w c v ho h => ?_⟩
  obtain ⟨g, hg, hreadable, hactor, hworkers⟩ := given_of_ofArguments ho
  obtain ⟨⟨file, env, w₁, hfile, henv, hsettings⟩, -⟩ := ends_configure h
  obtain ⟨b, hload, hover⟩ := exists_of_bind_eq_ok hsettings
  obtain ⟨l, e, hl, he, rfl⟩ := Config.load_eq_ok_iff.1 hload
  obtain ⟨k, hsaid, rfl⟩ := Config.override_eq_ok_iff.1 hover
  obtain rfl := Options.eq_layer hsaid
  exact ⟨g, _, file, env, w₁, l, e, hg, Options.givenBy_layer hactor hworkers hreadable hsaid,
    hfile, henv, hl, he, takenFrom_under⟩

end

/-! ## A run with three layers -/

/-- A file that says all settings, and an environment that says two of them. -/
def Store.threeLayers : Store Unit where
  files := [
    Store.file "run.yaml" "actor: filed\nactor_args: [a, b]\nworkers: 2\ntimeout_secs: 5\n"]
  programs := []
  environment := [("XOFV_ACTOR", ""), ("XOFV_ACTOR_ARGS", ""), ("XOFV_WORKERS", "3")]
  actor := ()

/-- The command line says how many workers there are. -/
def Options.threeLayers : Options where
  vectors := "vec.json"
  config := some "run.yaml"
  workers := some 6
  report := standardReport

/-- The settings of the options on the store. -/
def Options.configured (o : Options) : (Except Fault Config × Facts) × Store Unit :=
  Id.run (((configure Host.oneAnswer o).run.run { vectorsFile := o.vectors }).run Store.threeLayers)

theorem Options.ends_configured {o : Options} {c : Config}
    (h : o.configured.1.1.toOption = some c) :
    Ends (configure Host.oneAnswer o) ({ vectorsFile := o.vectors }, Store.threeLayers, ()) (.ok c)
      (o.configured.1.2, o.configured.2, ()) := by
  have hrun := run_id_twice (x := (configure Host.oneAnswer o).run)
    (s := { vectorsFile := o.vectors }) (t := Store.threeLayers) (r := o.configured) rfl
  rw [eq_ok_of_toOption h] at hrun
  exact hrun

/-- The workers of the command line, the arguments of the environment, though they are empty, and
the rest from the file. -/
theorem settings_layered_threeLayers :
    (∃ c, (Config.standard.override [(.text "actor", .scalar (.text "a")),
            (.text "workers", .scalar (.number (.int 2)))] >>= fun c =>
          c.override [(.text "workers", .scalar (.number (.int 3)))]) = .ok c ∧
        Config.standard.override [(.text "actor", .scalar (.text "a")),
          (.text "workers", .scalar (.number (.int 3)))] = .ok c) ∧
    ∃ c v, c = { actor := "filed", actorArgs := [], workers := 6, timeoutSecs := .finite 5 } ∧
      Options.ofArguments ["--vectors", "vec.json", "--config", "run.yaml", "--workers", "6"] =
        .ok .threeLayers ∧
      Ends (configure Host.oneAnswer .threeLayers)
        ({ vectorsFile := "vec.json" }, Store.threeLayers, ()) (.ok c) v ∧
      ∃ g k file env w' l e,
        (readWords ["--vectors", "vec.json", "--config", "run.yaml", "--workers", "6"] >>=
          Given.take {}) = .ok g ∧ GivenBy g k ∧
        (Options.threeLayers).ReadsFile Host.oneAnswer (Store.threeLayers, ()) file w' ∧
        Run (Host.oneAnswer).environment w' env v.2 ∧
        Layer.ReadFrom (Host.oneAnswer).loader file l ∧ Layer.SpelledBy env e ∧
        TakenFrom k e l c := by
  obtain ⟨hmerge, hrun⟩ := settings_layered Host.oneAnswer
  have hoptions : Options.ofArguments
      ["--vectors", "vec.json", "--config", "run.yaml", "--workers", "6"] = .ok .threeLayers :=
    eq_ok_of_toOption (by decide)
  have hends := Options.ends_configured (o := .threeLayers) (c := { Config.standard with
    actor := "filed", workers := 6, timeoutSecs := .finite 5 }) (by decide +kernel)
  refine ⟨⟨_, rfl, ?_⟩, _, _, rfl, hoptions, hends, hrun _ _ _ _ _ _ hoptions hends⟩
  exact hmerge _ _
    [(.text "actor", .scalar (.text "a")), (.text "workers", .scalar (.number (.int 2)))]
    [(.text "workers", .scalar (.number (.int 3)))] _ (Config.isOverlay_overlaid (by decide)) rfl

end XofConformance.CommandLine
