import XofConformance.Proofs.Config.Keys
import XofConformance.Proofs.Config.Variables

/-!
# How loading ends

Settings are loaded, or the configuration is at fault and says so, or the domain does not foresee
what happens. The last is the case exactly for the causes of `LoadTrips`: bytes that are no text, a
scalar without a value, keys that have no order, an open command line, and an integer that is too
large for a time. All of this holds of every loader.

    Settled (LoadTrips loader file env) (load file env loader)                    (settled_load)
    load file env loader = .error (.defect d) ↔ LoadTrips loader file env d       (load_outcomes)
-/

namespace XofConformance.Config

open Yaml (Value)

variable {v : Value} {es : Entries} {env : Environment} {loader : Loader} {f : File}
  {file : Option File} {c : Config} {d : Defect}

/-! ## Outcomes -/

/-- The result is a value, or the configuration is at fault, or something has happened that is not
foreseen, for one of the given causes. -/
inductive Settled {α : Type} (P : Defect → Prop) : Except Fault α → Prop
  | ok (a : α) : Settled P (.ok a)
  | config (why : ConfigFault) : Settled P (.error (.config why))
  | defect {d : Defect} (h : P d) : Settled P (.error (.defect d))

namespace Settled

variable {α β : Type} {P Q : Defect → Prop} {x : Except Fault α}

theorem mono (h : Settled P x) (hPQ : ∀ d, P d → Q d) : Settled Q x := by
  cases h with
  | ok a => exact .ok a
  | config why => exact .config why
  | defect h => exact .defect (hPQ _ h)

theorem bind {g : α → Except Fault β} (hx : Settled P x) (hg : ∀ a, x = .ok a → Settled P (g a)) :
    Settled P (x >>= g) := by
  cases hx with
  | ok a => exact hg a rfl
  | config why => exact .config why
  | defect h => exact .defect h

theorem map (g : α → β) (hx : Settled P x) : Settled P (g <$> x) := by
  cases hx with
  | ok a => exact .ok _
  | config why => exact .config why
  | defect h => exact .defect h

theorem cause (h : Settled P x) (hd : x = .error (.defect d)) : P d := by
  cases h with
  | ok a => cases hd
  | config why => cases hd
  | defect h =>
    cases hd
    exact h

theorem cases (h : Settled P x) : (∃ a, x = .ok a) ∨ (∃ why, x = .error (.config why)) ∨
    ∃ d, x = .error (.defect d) := by
  cases h with
  | ok a => exact .inl ⟨a, rfl⟩
  | config why => exact .inr (.inl ⟨why, rfl⟩)
  | defect h => exact .inr (.inr ⟨_, rfl⟩)

end Settled

/-! ## Values -/

/-- The value is a command line that cannot be split into words. -/
def OpenLine (v : Value) : Prop := ∃ t, v = .scalar (.text t) ∧ Text.ShellWords.split? t = none

theorem settled_readActor : Settled (fun _ => False) (readActor v) := by
  unfold readActor
  split
  · split
    · exact .config _
    · exact .ok _
  · exact .config _

theorem settled_readTexts {items : List Value} : Settled (fun _ => False) (readTexts items) := by
  induction items with
  | nil => exact .ok _
  | cons item rest ih =>
    unfold readTexts
    split
    · exact .ok _
    · next heq =>
      cases heq
      exact ih.bind fun _ _ => .ok _
    · exact .config _

theorem settled_readActorArgs :
    Settled (fun d => d = .unclosed ∧ OpenLine v) (readActorArgs v) := by
  unfold readActorArgs
  split
  · next t =>
    split
    · exact .ok _
    · next hsplit => exact .defect ⟨rfl, t, rfl, hsplit⟩
  · exact settled_readTexts.mono fun _ => False.elim
  · exact .config _

theorem readActorArgs_of_openLine (h : OpenLine v) :
    readActorArgs v = .error (.defect .unclosed) := by
  obtain ⟨t, rfl, hsplit⟩ := h
  rw [readActorArgs, hsplit]

theorem settled_readWorkers : Settled (fun _ => False) (readWorkers v) := by
  unfold readWorkers
  split
  · split
    · exact .ok _
    · exact .config _
  · exact .config _

theorem settled_readTimeout : Settled (fun d => d = .overflow ∧ TooLarge v) (readTimeout v) := by
  rcases readTimeout_cases v with ⟨x, -, hok⟩ | ⟨hlarge, herror⟩ | herror
  · rw [hok]
    exact .ok x
  · rw [herror]
    exact .defect ⟨rfl, hlarge⟩
  · rw [herror]
    exact .config _

theorem readTimeout_of_tooLarge (h : TooLarge v) : readTimeout v = .error (.defect .overflow) := by
  obtain ⟨k, rfl, hk, hx⟩ := h
  rw [readTimeout_int (le_zero_int.2 hk), hx]
  rfl

/-! ## Mappings -/

theorem settled_checkKeys :
    Settled (fun d => d = .unordered ∧ ¬ (strangers es).Pairwise Yaml.Scalar.Comparable)
      (checkKeys es) := by
  rw [checkKeys_eq]
  split
  · exact .ok _
  · split
    · exact .config _
    · next hnone =>
      refine .defect ⟨rfl, fun hpair => ?_⟩
      rw [← isSome_sortKeys_iff, hnone] at hpair
      cases hpair

theorem checkKeys_of_not_pairwise (h : ¬ (strangers es).Pairwise Yaml.Scalar.Comparable) :
    checkKeys es = .error (.defect .unordered) := by
  have hempty : ¬ (strangers es).isEmpty = true := fun hempty => by
    rw [List.isEmpty_iff.1 hempty] at h
    exact h .nil
  rw [← isSome_sortKeys_iff, Option.isSome_iff_ne_none, not_not] at h
  rw [checkKeys_eq, if_neg hempty, h]

section

variable {α : Type} {name : String} {read : Value → Except Fault α}

theorem settled_readSetting {P : Defect → Prop}
    (h : ∀ v, setting? name es = some v → Settled P (read v)) :
    Settled P (readSetting name read es) := by
  unfold readSetting
  split
  · next v hv => exact (h v hv).map some
  · exact .ok _

theorem readSetting_of_error {e : Fault} (hv : setting? name es = some v) (h : read v = .error e) :
    readSetting name read es = .error e := by
  unfold readSetting
  rw [hv]
  show some <$> read v = _
  rw [h]
  rfl

end

/-- The setting is not there, or its value is fit. -/
def Fits {α : Type} (R : Value → α → Prop) (name : String) (es : Entries) : Prop :=
  ∃ o, Option.Rel R (setting? name es) o

/-- A mapping that leads to what the domain does not foresee: its keys that name no setting have no
order, the arguments are an open command line, or the time is too large. -/
inductive Trips (es : Entries) : Defect → Prop
  | unordered (h : ¬ (strangers es).Pairwise Yaml.Scalar.Comparable) : Trips es .unordered
  | unclosed {v : Value} (known : Known es) (actor : Fits NamesActor "actor" es)
    (args : setting? "actor_args" es = some v) (line : OpenLine v) : Trips es .unclosed
  | overflow {v : Value} (known : Known es) (actor : Fits NamesActor "actor" es)
    (actorArgs : Fits GivesArguments "actor_args" es) (workers : Fits CountsWorkers "workers" es)
    (time : setting? "timeout_secs" es = some v) (large : TooLarge v) : Trips es .overflow

theorem settled_ofEntries : Settled (Trips es) (Layer.ofEntries es) := by
  refine (settled_checkKeys.mono ?_).bind fun _ hkeys => ?_
  · rintro _ ⟨rfl, hpair⟩
    exact .unordered hpair
  have hknown := checkKeys_eq_ok_iff.1 hkeys
  refine (settled_readSetting fun v _ => settled_readActor.mono fun _ => False.elim).bind
    fun a ha => ?_
  have hactor : Fits NamesActor "actor" es :=
    ⟨a, (readSetting_eq_ok_iff fun _ _ => readActor_eq_ok_iff).1 ha⟩
  refine (settled_readSetting fun v hv => settled_readActorArgs.mono ?_).bind fun b hb => ?_
  · rintro _ ⟨rfl, hline⟩
    exact .unclosed hknown hactor hv hline
  have hargs : Fits GivesArguments "actor_args" es :=
    ⟨b, (readSetting_eq_ok_iff fun _ _ => readActorArgs_eq_ok_iff).1 hb⟩
  refine (settled_readSetting fun v _ => settled_readWorkers.mono fun _ => False.elim).bind
    fun n hn => ?_
  have hworkers : Fits CountsWorkers "workers" es :=
    ⟨n, (readSetting_eq_ok_iff fun _ _ => readWorkers_eq_ok_iff).1 hn⟩
  refine (settled_readSetting fun v hv => settled_readTimeout.mono ?_).bind fun _ _ => .ok _
  rintro _ ⟨rfl, hlarge⟩
  exact .overflow hknown hactor hargs hworkers hv hlarge

theorem ofEntries_of_trips (h : Trips es d) : Layer.ofEntries es = .error (.defect d) := by
  unfold Layer.ofEntries
  cases h with
  | unordered hpair =>
    rw [checkKeys_of_not_pairwise hpair]
    rfl
  | unclosed hknown hactor hargs hline =>
    obtain ⟨a, ha⟩ := hactor
    rw [checkKeys_eq_ok_iff.2 hknown,
      (readSetting_eq_ok_iff fun _ _ => readActor_eq_ok_iff).2 ha,
      readSetting_of_error hargs (readActorArgs_of_openLine hline)]
    rfl
  | overflow hknown hactor hargs hworkers htime hlarge =>
    obtain ⟨a, ha⟩ := hactor
    obtain ⟨b, hb⟩ := hargs
    obtain ⟨n, hn⟩ := hworkers
    rw [checkKeys_eq_ok_iff.2 hknown,
      (readSetting_eq_ok_iff fun _ _ => readActor_eq_ok_iff).2 ha,
      (readSetting_eq_ok_iff fun _ _ => readActorArgs_eq_ok_iff).2 hb,
      (readSetting_eq_ok_iff fun _ _ => readWorkers_eq_ok_iff).2 hn,
      readSetting_of_error htime (readTimeout_of_tooLarge hlarge)]
    rfl

theorem settled_override : Settled (Trips es) (c.override es) :=
  settled_ofEntries.bind fun _ _ => .ok _

theorem override_of_trips (h : Trips es d) : c.override es = .error (.defect d) := by
  unfold override
  rw [ofEntries_of_trips h]
  rfl

/-! ## Environments -/

/-- An environment that leads to what the domain does not foresee: its numbers can be read, and the
arguments of the actor are an open command line. -/
structure VariablesTrip (env : Environment) : Prop where
  workers : ∀ t, given? "XOFV_WORKERS" isFilled env = some t → (Number.readInt? t).isSome
  timeoutSecs : ∀ t, given? "XOFV_TIMEOUT_SECS" isFilled env = some t →
    (Number.readFloat? t).isSome
  line : ∃ t, given? "XOFV_ACTOR_ARGS" (fun _ => true) env = some t ∧
    Text.ShellWords.split? t = none

/-- Values can be read from a text that is there exactly if it spells one. -/
theorem exists_rel_read_iff {α : Type} {read : Text → Except Text Value} {spell? : Text → Option α}
    {value : α → Value} (h : ∀ t v, read t = .ok v ↔ ∃ a, spell? t = some a ∧ v = value a)
    {o : Option Text} : (∃ w, Option.Rel (fun t v => read t = .ok v) o w) ↔
      ∀ t, o = some t → (spell? t).isSome := by
  constructor
  · rintro ⟨w, hw⟩ t rfl
    cases hw with
    | some hv =>
      obtain ⟨a, ha, -⟩ := (h _ _).1 hv
      exact Option.isSome_iff_exists.2 ⟨a, ha⟩
  · intro hspell
    cases o with
    | none => exact ⟨none, .none⟩
    | some t =>
      obtain ⟨a, ha⟩ := Option.isSome_iff_exists.1 (hspell t rfl)
      exact ⟨some (value a), .some ((h _ _).2 ⟨a, ha, rfl⟩)⟩

/-- What variables spell is a mapping that can trip over the command line only. -/
theorem trips_entriesOf_iff {names line : Option Text} {n x : Option Value}
    (hx : ∀ v, x = some v → ¬ TooLarge v) :
    Trips (entriesOf ((names.filter (!·.isEmpty)).map fun t => .scalar (.text t))
        (line.map fun t => .scalar (.text t)) n x) d ↔
      d = .unclosed ∧ ∃ t, line = some t ∧ Text.ShellWords.split? t = none := by
  constructor
  · intro h
    cases h with
    | unordered hpair =>
      rw [strangers_eq_nil_iff.2 known_entriesOf] at hpair
      exact absurd .nil hpair
    | unclosed _ _ hargs hline =>
      rw [actorArgs_entriesOf] at hargs
      obtain ⟨t, rfl, ht⟩ := Option.map_eq_some_iff.1 hargs
      obtain ⟨t', rfl, hsplit⟩ := hline
      cases ht
      exact ⟨rfl, _, rfl, hsplit⟩
    | overflow _ _ _ _ htime hlarge =>
      rw [timeoutSecs_entriesOf] at htime
      exact absurd hlarge (hx _ htime)
  · rintro ⟨rfl, t, rfl, hsplit⟩
    refine .unclosed known_entriesOf ⟨names.filter (!·.isEmpty), ?_⟩ actorArgs_entriesOf
      ⟨t, rfl, hsplit⟩
    rw [actor_entriesOf]
    exact rel_namesActor_iff.2 rfl

/-- A time that a variable spells is not too large: it is no integer. -/
theorem not_tooLarge_of_spelled {o : Option Text} {x : Option Value}
    (h : Option.Rel (fun t v => spelledTimeout t = .ok v) o x) :
    ∀ v, x = some v → ¬ TooLarge v := by
  rintro v rfl ⟨k, rfl, -, -⟩
  cases h with
  | some hv =>
    obtain ⟨y, -, hy⟩ := (spelledTimeout_eq_ok_iff _ _).1 hv
    cases hy

theorem settled_spelledEntry {P : Defect → Prop} {name key : String}
    {read : Text → Except Text Value} : Settled P (spelledEntry name key read env) := by
  rw [spelledEntry_eq]
  split
  · exact .ok _
  · split
    · exact .ok _
    · exact .config _

theorem settled_environmentEntries {P : Defect → Prop} : Settled P (environmentEntries env) :=
  settled_spelledEntry.bind fun _ _ => settled_spelledEntry.bind fun _ _ => .ok _

theorem settled_ofEnvironment :
    Settled (fun d => d = .unclosed ∧ VariablesTrip env) (c.ofEnvironment env) := by
  refine settled_environmentEntries.bind fun es hes => settled_override.mono fun d htrips => ?_
  obtain ⟨n, x, hn, hx, rfl⟩ := environmentEntries_eq_ok_iff.1 hes
  obtain ⟨rfl, hline⟩ := (trips_entriesOf_iff (not_tooLarge_of_spelled hx)).1 htrips
  exact ⟨rfl, (exists_rel_read_iff spelledWorkers_eq_ok_iff).1 ⟨n, hn⟩,
    (exists_rel_read_iff spelledTimeout_eq_ok_iff).1 ⟨x, hx⟩, hline⟩

theorem ofEnvironment_of_trip (h : VariablesTrip env) :
    c.ofEnvironment env = .error (.defect .unclosed) := by
  obtain ⟨n, hn⟩ := (exists_rel_read_iff spelledWorkers_eq_ok_iff).2 h.workers
  obtain ⟨x, hx⟩ := (exists_rel_read_iff spelledTimeout_eq_ok_iff).2 h.timeoutSecs
  unfold ofEnvironment
  rw [environmentEntries_eq_ok_iff.2 ⟨n, x, hn, hx, rfl⟩]
  exact override_of_trips ((trips_entriesOf_iff (not_tooLarge_of_spelled hx)).2 ⟨rfl, h.line⟩)

/-! ## Files -/

/-- A file that leads to what the domain does not foresee: it holds no text, or a scalar in it is no
value of its kind. -/
inductive File.Trips (loader : Loader) (f : File) : Defect → Prop
  | undecodable {bytes : Bytes} {why : Text.Utf8Fault} (content : f.content = .ok bytes)
    (decode : Text.ofUtf8 bytes = .error why) : f.Trips loader .undecodable
  | badScalar {bytes : Bytes} {t : Text} {why : Yaml.ScalarDefect}
    (content : f.content = .ok bytes) (decode : Text.ofUtf8 bytes = .ok t)
    (read : loader t = .error (.scalar why)) : f.Trips loader (.badScalar why)

theorem File.settled_entries : Settled (f.Trips loader) (f.entries loader) := by
  unfold File.entries
  split
  · exact .config _
  · next hcontent =>
    split
    · next hdecode => exact .defect (.undecodable hcontent hdecode)
    · next hdecode =>
      split
      · exact .config _
      · next hread => exact .defect (.badScalar hcontent hdecode hread)
      · exact .ok _
      · exact .ok _
      · exact .config _

theorem File.entries_of_trips (h : f.Trips loader d) :
    f.entries loader = .error (.defect d) := by
  unfold File.entries
  cases h with
  | undecodable hcontent hdecode => simp only [hcontent, hdecode]
  | badScalar hcontent hdecode hread => simp only [hcontent, hdecode, hread]

/-! ## Loading -/

/-- Loading leads to what the domain does not foresee: the file trips, or its settings do, or the
environment does after a file that is fit. -/
inductive LoadTrips (loader : Loader) : Option File → Environment → Defect → Prop
  | file {f : File} {env : Environment} {d : Defect} (h : f.Trips loader d) :
    LoadTrips loader (some f) env d
  | settings {f : File} {env : Environment} {es : Entries} {d : Defect}
    (hes : f.entries loader = .ok es) (h : Trips es d) : LoadTrips loader (some f) env d
  | environment {file : Option File} {env : Environment} {l : Layer} (hl : l.ReadFrom loader file)
    (h : VariablesTrip env) : LoadTrips loader file env .unclosed

theorem settled_load : Settled (LoadTrips loader file env) (load file env loader) := by
  cases file with
  | none =>
    refine settled_ofEnvironment.mono ?_
    rintro _ ⟨rfl, htrip⟩
    exact .environment .none htrip
  | some f =>
    refine (f.settled_entries.mono fun _ => .file).bind fun es hes => ?_
    refine (settled_override.mono fun _ => .settings hes).bind fun b hb => ?_
    obtain ⟨l, hl, -⟩ := override_eq_ok_iff.1 hb
    refine settled_ofEnvironment.mono ?_
    rintro _ ⟨rfl, htrip⟩
    exact .environment (.some hes hl) htrip

theorem load_of_trips (h : LoadTrips loader file env d) :
    load file env loader = .error (.defect d) := by
  cases h with
  | file htrips => exact bind_eq_error_iff.2 (.inl (File.entries_of_trips htrips))
  | settings hes htrips =>
    exact bind_eq_error_iff.2 (.inr ⟨_, hes, bind_eq_error_iff.2 (.inl (override_of_trips htrips))⟩)
  | environment hl htrip =>
    cases hl with
    | none => exact ofEnvironment_of_trip htrip
    | some hes hl =>
      refine bind_eq_error_iff.2 (.inr ⟨_, hes, bind_eq_error_iff.2 (.inr ?_)⟩)
      exact ⟨_, override_eq_ok_iff.2 ⟨_, hl, rfl⟩, ofEnvironment_of_trip htrip⟩

/-- **How loading ends**: with any loader there are settings, or the configuration is at fault, or
the domain does not foresee what happens; and the last is the case exactly for the causes of
`LoadTrips`. -/
theorem load_outcomes (file : Option File) (env : Environment) (loader : Loader) :
    ((∃ c, load file env loader = .ok c) ∨ (∃ why, load file env loader = .error (.config why)) ∨
      ∃ d, load file env loader = .error (.defect d)) ∧
    ∀ d, load file env loader = .error (.defect d) ↔ LoadTrips loader file env d :=
  ⟨settled_load.cases, fun _ => ⟨settled_load.cause, load_of_trips⟩⟩

/-- An open quote in the arguments of the actor is not told as a fault of the configuration. -/
theorem not_forall_load_told : ¬ ∀ file env, (∃ c, load file env = .ok c) ∨
    ∃ why, load file env = .error (.config why) := by
  intro h
  have htrips : LoadTrips Yaml.Value.ofText none [("XOFV_ACTOR_ARGS", "'")] .unclosed := .environment .none {
    workers := nofun
    timeoutSecs := nofun
    line := ⟨_, rfl, by decide⟩ }
  have hload := load_of_trips htrips
  rcases h none [("XOFV_ACTOR_ARGS", "'")] with ⟨c, hc⟩ | ⟨why, hwhy⟩
  · rw [hload] at hc
    cases hc
  · rw [hload] at hwhy
    cases hwhy

end XofConformance.Config
