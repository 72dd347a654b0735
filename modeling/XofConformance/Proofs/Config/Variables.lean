import XofConformance.Proofs.Config.Settings

/-!
# What variables spell

The layer that an environment spells: an empty actor and a blank number do not count, but empty
arguments do. What is loaded has the layer of the file, if there is one, under that of the
environment, whatever loader makes values of files.

    c.ofEnvironment env = .ok c' ↔ ∃ l, l.SpelledBy env ∧ c' = c.under l  (ofEnvironment_eq_ok_iff)
    load file env loader = .ok c ↔ c is standard under the layers of both (load_eq_ok_iff)
-/

namespace XofConformance.Config

open Yaml (Value)

variable {env : Environment} {loader : Loader} {c c' : Config} {l : Layer}

/-! ## Variables -/

/-- The text of a variable, if it counts. -/
def given? (name : String) (counts : Text → Bool) (env : Environment) : Option Text :=
  (env.lookup (Text.ofString name)).filter counts

/-- The text is not blank. -/
def isFilled (t : Text) : Bool := !(Text.strip t).isEmpty

/-- The text spells a number of workers. -/
def SpellsWorkers (t : Text) (n : Int) : Prop := Number.readInt? t = some n ∧ 1 ≤ n

/-- The text spells a time. -/
def SpellsTime (t : Text) (x : Binary64) : Prop := Number.readFloat? t = some x ∧ IsTime x

/-- The variables spell what the layer says. -/
structure Layer.SpelledBy (env : Environment) (l : Layer) : Prop where
  actor : l.actor = given? "XOFV_ACTOR" (!·.isEmpty) env
  actorArgs : Option.Rel (fun t ts => Text.ShellWords.split? t = some ts)
    (given? "XOFV_ACTOR_ARGS" (fun _ => true) env) l.actorArgs
  workers : Option.Rel SpellsWorkers (given? "XOFV_WORKERS" isFilled env) l.workers
  timeoutSecs : Option.Rel SpellsTime (given? "XOFV_TIMEOUT_SECS" isFilled env) l.timeoutSecs

/-! ## Entries -/

theorem textEntry_eq {name key : String} {counts : Text → Bool} : textEntry name key counts env =
    entry key ((given? name counts env).map fun t => .scalar (.text t)) := by
  unfold textEntry given?
  cases env.lookup (Text.ofString name) with
  | none => rfl
  | some t =>
    show (if counts t = true then _ else _) = _
    rw [Option.filter_some]
    split <;> rfl

theorem spelledEntry_eq {name key : String} {read : Text → Except Text Value} :
    spelledEntry name key read env = match given? name isFilled env with
      | none => .ok []
      | some t => match read t with
        | .ok v => .ok [(.text key, v)]
        | .error reason => refuse (.variable name reason) := by
  unfold spelledEntry given? isFilled
  cases env.lookup (Text.ofString name) with
  | none => rfl
  | some t =>
    rw [Option.filter_some]
    dsimp only
    cases (Text.strip t).isEmpty <;> rfl

theorem spelledEntry_eq_ok_iff {name key : String} {read : Text → Except Text Value}
    {es : Entries} : spelledEntry name key read env = .ok es ↔
      ∃ o, Option.Rel (fun t v => read t = .ok v) (given? name isFilled env) o ∧
        es = entry key o := by
  rw [spelledEntry_eq]
  cases given? name isFilled env with
  | none =>
    constructor
    · intro h
      cases h
      exact ⟨none, .none, rfl⟩
    · rintro ⟨o, ho, rfl⟩
      cases ho
      rfl
  | some t =>
    constructor
    · intro h
      dsimp only at h
      split at h
      · next v hv =>
        cases h
        exact ⟨some v, .some hv, rfl⟩
      · cases h
    · rintro ⟨o, ho, rfl⟩
      cases ho with
      | some hv =>
        dsimp only
        rw [hv]
        rfl

theorem spelledWorkers_eq_ok_iff (t : Text) (v : Value) : spelledWorkers t = .ok v ↔
    ∃ n, Number.readInt? t = some n ∧ v = .scalar (.number (.int n)) := by
  unfold spelledWorkers
  cases Number.readInt? t <;> simp [eq_comm]

theorem spelledTimeout_eq_ok_iff (t : Text) (v : Value) : spelledTimeout t = .ok v ↔
    ∃ x, Number.readFloat? t = some x ∧ v = .scalar (.number (.float x)) := by
  unfold spelledTimeout
  cases Number.readFloat? t <;> simp [eq_comm]

/-- What a text spells and what that says, in one. -/
theorem exists_rel_iff {α : Type} {read : Text → Except Text Value} {R : Value → α → Prop}
    {S : Text → α → Prop} (h : ∀ t a, S t a ↔ ∃ v, read t = .ok v ∧ R v a) {o : Option Text}
    {r : Option α} : (∃ w, Option.Rel (fun t v => read t = .ok v) o w ∧ Option.Rel R w r) ↔
      Option.Rel S o r := by
  constructor
  · rintro ⟨w, how, hwr⟩
    cases how with
    | none =>
      cases hwr
      exact .none
    | some hv =>
      cases hwr with
      | some hr => exact .some ((h _ _).2 ⟨_, hv, hr⟩)
  · intro hor
    cases hor with
    | none => exact ⟨none, .none, .none⟩
    | some hs =>
      obtain ⟨v, hv, hr⟩ := (h _ _).1 hs
      exact ⟨some v, .some hv, .some hr⟩

theorem spellsWorkers_iff (t : Text) (n : Int) :
    SpellsWorkers t n ↔ ∃ v, spelledWorkers t = .ok v ∧ CountsWorkers v n := by
  constructor
  · rintro ⟨hread, hn⟩
    exact ⟨_, (spelledWorkers_eq_ok_iff _ _).2 ⟨n, hread, rfl⟩, rfl, hn⟩
  · rintro ⟨v, hv, rfl, hn⟩
    obtain ⟨k, hread, hk⟩ := (spelledWorkers_eq_ok_iff _ _).1 hv
    cases hk
    exact ⟨hread, hn⟩

theorem spellsTime_iff (t : Text) (x : Binary64) :
    SpellsTime t x ↔ ∃ v, spelledTimeout t = .ok v ∧ LimitsTime v x := by
  constructor
  · rintro ⟨hread, hx⟩
    exact ⟨_, (spelledTimeout_eq_ok_iff _ _).2 ⟨x, hread, rfl⟩, .float hx⟩
  · rintro ⟨v, hv, hx⟩
    obtain ⟨y, hread, rfl⟩ := (spelledTimeout_eq_ok_iff _ _).1 hv
    cases hx with
    | float hx => exact ⟨hread, hx⟩

/-- A text that is not empty names the actor that it is. -/
theorem rel_namesActor_iff {o r : Option Text} : Option.Rel NamesActor
    ((o.filter (!·.isEmpty)).map fun t => .scalar (.text t)) r ↔ r = o.filter (!·.isEmpty) := by
  have hfilled {t : Text} (ht : t ∈ o.filter (!·.isEmpty)) : t ≠ [] := by
    obtain ⟨-, hfull⟩ := Option.mem_filter_iff.1 ht
    rintro rfl
    cases hfull
  cases hf : o.filter (!·.isEmpty) with
  | none =>
    constructor
    · intro h
      cases h
      rfl
    · rintro rfl
      exact .none
  | some t =>
    constructor
    · intro h
      cases h with
      | some hnames =>
        obtain ⟨ht, -⟩ := hnames
        cases ht
        rfl
    · rintro rfl
      exact .some ⟨rfl, hfilled hf⟩

/-- A text gives the arguments that are the words of its command line. -/
theorem rel_givesArguments_iff {o : Option Text} {r : Option (List Text)} :
    Option.Rel GivesArguments (o.map fun t => .scalar (.text t)) r ↔
      Option.Rel (fun t ts => Text.ShellWords.split? t = some ts) o r := by
  constructor
  · intro h
    cases o with
    | none =>
      cases h
      exact .none
    | some t =>
      cases h with
      | some hgives =>
        cases hgives with
        | line hsplit => exact .some hsplit
  · intro h
    cases h with
    | none => exact .none
    | some hsplit => exact .some (.line hsplit)

/-! ## The environment -/

theorem environmentEntries_eq_ok_iff {es : Entries} : environmentEntries env = .ok es ↔
    ∃ n x, Option.Rel (fun t v => spelledWorkers t = .ok v)
        (given? "XOFV_WORKERS" isFilled env) n ∧
      Option.Rel (fun t v => spelledTimeout t = .ok v)
        (given? "XOFV_TIMEOUT_SECS" isFilled env) x ∧
      es = entriesOf ((given? "XOFV_ACTOR" (!·.isEmpty) env).map fun t => .scalar (.text t))
        ((given? "XOFV_ACTOR_ARGS" (fun _ => true) env).map fun t => .scalar (.text t)) n x := by
  constructor
  · intro h
    obtain ⟨_, hworkers, h⟩ := exists_of_bind_eq_ok h
    obtain ⟨_, htimeout, h⟩ := exists_of_bind_eq_ok h
    cases h
    obtain ⟨n, hn, rfl⟩ := spelledEntry_eq_ok_iff.1 hworkers
    obtain ⟨x, hx, rfl⟩ := spelledEntry_eq_ok_iff.1 htimeout
    refine ⟨n, x, hn, hx, ?_⟩
    rw [textEntry_eq, textEntry_eq]
    rfl
  · rintro ⟨n, x, hn, hx, rfl⟩
    unfold environmentEntries
    rw [spelledEntry_eq_ok_iff.2 ⟨n, hn, rfl⟩, spelledEntry_eq_ok_iff.2 ⟨x, hx, rfl⟩,
      textEntry_eq, textEntry_eq]
    rfl

/-- **Settings under an environment**: the variables are taken exactly if all that counts is fit,
and then what they spell lies over the settings. -/
theorem ofEnvironment_eq_ok_iff :
    c.ofEnvironment env = .ok c' ↔ ∃ l : Layer, l.SpelledBy env ∧ c' = c.under l := by
  constructor
  · intro h
    obtain ⟨es, hes, h⟩ := exists_of_bind_eq_ok h
    obtain ⟨n, x, hn, hx, rfl⟩ := environmentEntries_eq_ok_iff.1 hes
    obtain ⟨l, hl, rfl⟩ := override_eq_ok_iff.1 h
    obtain ⟨ha, hb, hn', hx'⟩ := saidBy_entriesOf_iff.1 hl
    refine ⟨l, ?_, rfl⟩
    exact {
      actor := rel_namesActor_iff.1 ha
      actorArgs := rel_givesArguments_iff.1 hb
      workers := (exists_rel_iff spellsWorkers_iff).1 ⟨n, hn, hn'⟩
      timeoutSecs := (exists_rel_iff spellsTime_iff).1 ⟨x, hx, hx'⟩ }
  · rintro ⟨l, hl, rfl⟩
    obtain ⟨n, hn, hn'⟩ := (exists_rel_iff spellsWorkers_iff).2 hl.workers
    obtain ⟨x, hx, hx'⟩ := (exists_rel_iff spellsTime_iff).2 hl.timeoutSecs
    unfold ofEnvironment
    rw [environmentEntries_eq_ok_iff.2 ⟨n, x, hn, hx, rfl⟩]
    exact override_eq_ok_iff.2 ⟨l, saidBy_entriesOf_iff.2 ⟨rel_namesActor_iff.2 hl.actor,
      rel_givesArguments_iff.2 hl.actorArgs, hn', hx'⟩, rfl⟩

/-! ## The file -/

/-- The layer of a file, if there is one. -/
inductive Layer.ReadFrom (loader : Loader) : Option File → Layer → Prop
  | none : Layer.ReadFrom loader none {}
  | some {f : File} {es : Entries} {l : Layer} (hes : f.entries loader = .ok es)
    (hl : l.SaidBy es) : Layer.ReadFrom loader (some f) l

/-- **Settings that are loaded**: the environment lies over the file, and the file over what
holds where nothing else is said. -/
theorem load_eq_ok_iff {file : Option File} : load file env loader = .ok c ↔
    ∃ l m : Layer, l.ReadFrom loader file ∧ m.SpelledBy env ∧
      c = (standard.under l).under m := by
  constructor
  · intro h
    cases file with
    | none =>
      obtain ⟨m, hm, rfl⟩ := ofEnvironment_eq_ok_iff.1 h
      exact ⟨{}, m, .none, hm, rfl⟩
    | some f =>
      obtain ⟨es, hes, h⟩ := exists_of_bind_eq_ok h
      obtain ⟨b, hb, h⟩ := exists_of_bind_eq_ok h
      obtain ⟨l, hl, rfl⟩ := override_eq_ok_iff.1 hb
      obtain ⟨m, hm, rfl⟩ := ofEnvironment_eq_ok_iff.1 h
      exact ⟨l, m, .some hes hl, hm, rfl⟩
  · rintro ⟨l, m, hl, hm, rfl⟩
    cases hl with
    | none => exact ofEnvironment_eq_ok_iff.2 ⟨m, hm, rfl⟩
    | some hes hl =>
      show (File.entries loader _ >>= fun es => standard.override es >>= _) = _
      rw [hes]
      show standard.override _ >>= _ = _
      rw [override_eq_ok_iff.2 ⟨l, hl, rfl⟩]
      exact ofEnvironment_eq_ok_iff.2 ⟨m, hm, rfl⟩

end XofConformance.Config
