import XofConformance.CommandLine.Host
import XofConformance.Text.Utf8

/-!
# Hosts in memory

A host whose files are a table, whose actor is a function from request lines to what it sends
back, and which keeps all that was written and said. A place is a list of directory names; those
that only say "one up" are the directories around the one in which everything stands.
-/

namespace XofConformance.CommandLine

open Actor (Received Channel)

/-- A file or a directory by the names on the way to it. -/
abbrev Place := List Text

/-- A host in memory, with an actor whose state is of type `σ`. -/
structure Store (σ : Type) where
  /-- The files that are there from the start. -/
  files : List (Place × Bytes)
  /-- The programs, which are files without content. -/
  programs : List Place
  environment : Config.Environment
  /-- Why no actor can be started. -/
  startFault : Option FileFault := none
  actor : σ
  /-- What the actor has sent and nobody has heard yet. -/
  coming : List Received := []
  /-- The directories that were made. -/
  directories : List Place := []
  /-- The files that were written, latest first. -/
  written : List (Place × Text) := []
  /-- The command lines of the actors that were started, latest first. -/
  started : List (List Text) := []
  out : Text := []
  err : Text := []

namespace Store

variable {σ : Type}

/-! ## Places -/

/-- The name of the directory around one. -/
def up : Text := ".."

/-- What a name leads to from a directory. -/
def step (here : Place) (name : Text) : Place :=
  if name = up ∧ here.any (· != up) then here.dropLast else here ++ [name]

/-- What can be at a place. -/
inductive Kind
  | file
  | directory
  | nothing
  deriving DecidableEq

/-- The places at which there is a file. -/
def filePlaces (s : Store σ) : List Place :=
  s.written.map (·.1) ++ s.files.map (·.1) ++ s.programs

/-- What is at a place: a directory is there if it was made or holds something. -/
def kind (s : Store σ) (place : Place) : Kind :=
  if s.filePlaces.contains place then .file
  else if place.all (· == up) || s.directories.contains place
      || s.filePlaces.any fun f => place.isPrefixOf f then .directory
  else .nothing

/-- Follows names from a directory. -/
def follow (s : Store σ) (here : Place) : List Text → Except FileFault Place
  | [] => .ok here
  | name :: rest =>
    match s.kind here with
    | .file => .error .notDirectory
    | .nothing => .error .missing
    | .directory => s.follow (step here name) rest

/-- The place of a path. What has a path from the root is not in the store. -/
def place (s : Store σ) (path : Text) : Except FileFault Place :=
  if (Path.root path).isEmpty then s.follow [] (Path.parts path) else .error .missing

/-! ## Files -/

/-- There is a file or a directory at a path. -/
def isThere (s : Store σ) (path : Text) : Bool :=
  match s.place path with
  | .ok place => s.kind place != .nothing
  | .error _ => false

/-- There is a program at a path. -/
def isProgram (s : Store σ) (path : Text) : Bool :=
  match s.place path with
  | .ok place => s.programs.contains place
  | .error _ => false

/-- The content of the file at a place: the one that was written last. -/
def content (s : Store σ) (place : Place) : Bytes :=
  match s.written.lookup place with
  | some t => (t.toUtf8?).getD []
  | none => (s.files.lookup place).getD []

/-- Reads the file at a path. -/
def read (s : Store σ) (path : Text) : Except FileFault Bytes := do
  let place ← s.place path
  match s.kind place with
  | .file => return s.content place
  | .directory => throw .directory
  | .nothing => throw .missing

/-- Makes the directories of paths, which follow one another. -/
def makeDirectories (s : Store σ) : List Text → Except FileFault (Store σ)
  | [] => .ok s
  | path :: rest => do
    let place ← s.place path
    match s.kind place with
    | .file => throw (if rest.isEmpty then .occupied else .notDirectory)
    | .directory => s.makeDirectories rest
    | .nothing => makeDirectories { s with directories := place :: s.directories } rest

/-- Writes a file and the directories around it. -/
def write (s : Store σ) (path content : Text) : Except FileFault (Store σ) := do
  let s ← s.makeDirectories (Path.ancestors path)
  let place ← s.place path
  match s.kind place with
  | .directory => throw .directory
  | _ => return { s with written := (place, content) :: s.written }

/-! ## The host -/

/-- The way to an actor that answers each line at once. -/
def channel (react : Text → StateM σ (List Received)) : Channel (StateM (Store σ)) where
  send line := fun s =>
    let (replies, actor) := (react line).run s.actor
    (.ok (), { s with actor, coming := s.coming ++ replies })
  receive := fun s =>
    match s.coming with
    | [] => (.silence, s)
    | r :: rest => (r, { s with coming := rest })

/-- Starts the actor. -/
def start (react : Text → StateM σ (List Received)) (c : Config) :
    StateM (Store σ) (Except Text (Channel (StateM (Store σ)))) := fun s =>
  match s.startFault with
  | some why => (.error (why.message c.actor), s)
  | none => (.ok (channel react), { s with started := (c.actor :: c.actorArgs) :: s.started })

/-- Stores as hosts, with an actor that reacts to what it is sent. -/
def host (react : Text → StateM σ (List Received)) : Host (StateM (Store σ)) where
  isThere path := fun s => (s.isThere path, s)
  isProgram path := fun s => (s.isProgram path, s)
  read path := fun s => (s.read path, s)
  write path content := fun s =>
    match s.write path content with
    | .ok s => (.ok (), s)
    | .error why => (.error why, s)
  environment := fun s => (s.environment, s)
  loader := Yaml.Value.ofText
  start := start react
  inform line := fun s => ((), { s with out := s.out ++ line ++ [0x0A] })
  complain line := fun s => ((), { s with err := s.err ++ line ++ [0x0A] })

end Store

end XofConformance.CommandLine
