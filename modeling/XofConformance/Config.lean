import XofConformance.Fault
import XofConformance.Text.ShellWords
import XofConformance.Yaml.Value.Reader

/-!
# Configuration

What a run needs to know about the actor: its file and arguments, how many workers ask it at
once, and how long an answer may take. Settings come in layers: each layer says something about
some of the fields, and what it says replaces what the layers before it said. How the text of a
file becomes a value is left to a loader; the standard one is that of `Yaml.Value.ofText`.

    (c.under l).under m = c.under (l.under m)                              (under_under)
-/

namespace XofConformance

/-- The settings of a run. -/
structure Config where
  actor : Text
  actorArgs : List Text
  workers : Int
  timeoutSecs : Binary64
  deriving DecidableEq

namespace Config

/-- The settings where nothing else is said. -/
def standard : Config :=
  { actor := "target/release/xof_actor", actorArgs := [], workers := 4, timeoutSecs := .finite 30 }

/-! ## Layers -/

/-- What a layer says. -/
structure Layer where
  actor : Option Text := none
  actorArgs : Option (List Text) := none
  workers : Option Int := none
  timeoutSecs : Option Binary64 := none
  deriving DecidableEq

/-- The settings with a layer over them. -/
def under (c : Config) (l : Layer) : Config :=
  { actor := l.actor.getD c.actor, actorArgs := l.actorArgs.getD c.actorArgs,
    workers := l.workers.getD c.workers, timeoutSecs := l.timeoutSecs.getD c.timeoutSecs }

/-- A layer with another one over it. -/
def Layer.under (l m : Layer) : Layer :=
  { actor := m.actor <|> l.actor, actorArgs := m.actorArgs <|> l.actorArgs,
    workers := m.workers <|> l.workers, timeoutSecs := m.timeoutSecs <|> l.timeoutSecs }

theorem under_under (c : Config) (l m : Layer) :
    (c.under l).under m = c.under (l.under m) := by
  obtain ⟨a, b, d, e⟩ := m
  cases a <;> cases b <;> cases d <;> cases e <;> rfl

/-! ## Fields -/

/-- The entries of a mapping of settings. -/
abbrev Entries := List (Yaml.Scalar × Yaml.Value)

/-- The names of the settings. -/
def fieldNames : List Text := ["actor", "actor_args", "workers", "timeout_secs"]

/-- The value of a setting. -/
def setting? (name : String) (entries : Entries) : Option Yaml.Value :=
  Yaml.Value.lookup (.text name) entries

/-- A fault of the configuration. -/
def refuse {α : Type} (why : ConfigFault) : Except Fault α := .error (.config why)

/-- The file of the actor: a text that is not empty. -/
def readActor : Yaml.Value → Except Fault Text
  | .scalar (.text t) => if t.isEmpty then refuse .actor else .ok t
  | _ => refuse .actor

/-- A list of texts. -/
def readTexts : List Yaml.Value → Except Fault (List Text)
  | [] => .ok []
  | .scalar (.text t) :: rest => do return t :: (← readTexts rest)
  | _ => refuse .actorArgs

/-- The arguments of the actor: a list of texts, or a command line. -/
def readActorArgs : Yaml.Value → Except Fault (List Text)
  | .scalar (.text t) =>
    match Text.ShellWords.split? t with
    | some words => .ok words
    | none => .error (.defect .unclosed)
  | .list items => readTexts items
  | _ => refuse .actorArgs

/-- The number of workers: an integer from 1 on. -/
def readWorkers : Yaml.Value → Except Fault Int
  | .scalar (.number (.int n)) => if 1 ≤ n then .ok n else refuse .workers
  | _ => refuse .workers

/-- The time an answer may take: a number that is not zero or less, as a binary64 value. -/
def readTimeout : Yaml.Value → Except Fault Binary64
  | .scalar (.number n) =>
    if n.le (.int 0) then refuse .timeout
    else match n with
      | .float x => .ok x
      | .int k =>
        match Binary64.ofInt? k with
        | some x => .ok x
        | none => .error (.defect .overflow)
  | _ => refuse .timeout

/-- A setting that is read if it is there. -/
def readSetting {α : Type} (name : String) (read : Yaml.Value → Except Fault α)
    (entries : Entries) : Except Fault (Option α) :=
  match setting? name entries with
  | some v => some <$> read v
  | none => .ok none

/-! ## Mappings -/

/-- The key is the name of a setting. -/
def isField (key : Yaml.Scalar) : Bool := fieldNames.any fun name => key == .text name

/-- A key put among keys in their order, if they have one. -/
def insertKey (key : Yaml.Scalar) : List Yaml.Scalar → Option (List Yaml.Scalar)
  | [] => some [key]
  | k :: rest => do
    if ← key.less? k then return key :: k :: rest
    else return k :: (← insertKey key rest)

/-- The keys in their order, if they have one. -/
def sortKeys (keys : List Yaml.Scalar) : Option (List Yaml.Scalar) :=
  keys.foldlM (fun sorted k => insertKey k sorted) []

/-- A mapping of settings has no other keys. -/
def checkKeys (entries : Entries) : Except Fault Unit :=
  let others := (entries.map (·.1)).filter fun k => !isField k
  if others.isEmpty then .ok ()
  else match sortKeys others with
    | some keys => refuse (.unexpectedKeys (keys.map Yaml.Scalar.quoted))
    | none => .error (.defect .unordered)

/-- The layer of a mapping. -/
def Layer.ofEntries (entries : Entries) : Except Fault Layer := do
  checkKeys entries
  return {
    actor := ← readSetting "actor" readActor entries
    actorArgs := ← readSetting "actor_args" readActorArgs entries
    workers := ← readSetting "workers" readWorkers entries
    timeoutSecs := ← readSetting "timeout_secs" readTimeout entries }

/-- The settings with a mapping over them. -/
def override (c : Config) (entries : Entries) : Except Fault Config := do
  return c.under (← Layer.ofEntries entries)

/-! ## The environment -/

/-- The variables of an environment. -/
abbrev Environment := List (Text × Text)

/-- How much of an unreadable integer a message shows. -/
def maxShown : Nat := 200

/-- The number of workers that a variable spells. -/
def spelledWorkers (t : Text) : Except Text Yaml.Value :=
  match Number.readInt? t with
  | some n => .ok (.scalar (.number (.int n)))
  | none => .error ("invalid literal for int() with base 10: " ++ t.quoted.take maxShown)

/-- The time that a variable spells. -/
def spelledTimeout (t : Text) : Except Text Yaml.Value :=
  match Number.readFloat? t with
  | some x => .ok (.scalar (.number (.float x)))
  | none => .error ("could not convert string to float: " ++ t.quoted)

/-- The entry of a variable that is not blank. -/
def spelledEntry (name key : String) (read : Text → Except Text Yaml.Value)
    (env : Environment) : Except Fault Entries :=
  match env.lookup (Text.ofString name) with
  | none => .ok []
  | some t =>
    if (Text.strip t).isEmpty then .ok []
    else match read t with
      | .ok v => .ok [(.text key, v)]
      | .error reason => refuse (.variable name reason)

/-- The entry of a variable that is a text. -/
def textEntry (name key : String) (counts : Text → Bool) (env : Environment) : Entries :=
  match env.lookup (Text.ofString name) with
  | some t => if counts t then [(.text key, .scalar (.text t))] else []
  | none => []

/-- The entries of an environment: an empty actor and a blank number say nothing. -/
def environmentEntries (env : Environment) : Except Fault Entries := do
  let workers ← spelledEntry "XOFV_WORKERS" "workers" spelledWorkers env
  let timeout ← spelledEntry "XOFV_TIMEOUT_SECS" "timeout_secs" spelledTimeout env
  return textEntry "XOFV_ACTOR" "actor" (!·.isEmpty) env
    ++ textEntry "XOFV_ACTOR_ARGS" "actor_args" (fun _ => true) env ++ workers ++ timeout

/-- The settings with an environment over them. -/
def ofEnvironment (c : Config) (env : Environment) : Except Fault Config := do
  c.override (← environmentEntries env)

/-! ## Files -/

/-- What makes values of the texts of files. -/
abbrev Loader := Text → Except Yaml.ReadFault Yaml.Value

/-- A configuration file: its path, and its bytes or why it cannot be read. -/
structure File where
  path : Text
  content : Except FileFault Bytes

/-- The entries of a file; an empty document has none. -/
def File.entries (loader : Loader) (f : File) : Except Fault Entries :=
  match f.content with
  | .error why => refuse (.unreadable f.path why)
  | .ok bytes =>
    match Text.ofUtf8 bytes with
    | .error _ => .error (.defect .undecodable)
    | .ok t =>
      match loader t with
      | .error .malformed => refuse (.unparsable f.path)
      | .error (.scalar why) => .error (.defect (.badScalar why))
      | .ok (.scalar .null) => .ok []
      | .ok (.mapping entries) => .ok entries
      | .ok _ => refuse .notMapping

/-- The settings of a file, if there is one, with the environment over them. -/
def load (file : Option File) (env : Environment) (loader : Loader := Yaml.Value.ofText) :
    Except Fault Config := do
  let c ← match file with
    | some f => standard.override (← f.entries loader)
    | none => .ok standard
  c.ofEnvironment env

end Config

end XofConformance
