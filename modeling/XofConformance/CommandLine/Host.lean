import XofConformance.Actor.Channel
import XofConformance.CommandLine.Path
import XofConformance.Config

/-!
# Hosts

What a run needs of the machine it runs on: files, programs, the environment, a way to start an
actor, and somewhere to talk to the user. Paths are in normal form; a file is written with all
the directories around it.
-/

namespace XofConformance.CommandLine

/-- A machine to run on. -/
structure Host (m : Type → Type) where
  /-- There is a file or a directory. -/
  isThere : Text → m Bool
  /-- There is a file that can be started. -/
  isProgram : Text → m Bool
  read : Text → m (Except FileFault Bytes)
  write : Text → Text → m (Except FileFault Unit)
  environment : m Config.Environment
  /-- Makes values of configuration files. -/
  loader : Config.Loader
  /-- Starts the actor of the settings, or tells why it cannot be started. -/
  start : Config → m (Except Text (Actor.Channel m))
  /-- Shows a line of the result. -/
  inform : Text → m Unit
  /-- Shows a line about what went wrong. -/
  complain : Text → m Unit

namespace Host

/-- The directories that are searched for programs if the environment names none. -/
def standardSearch : Text := "/bin:/usr/bin"

/-- The paths at which a program may be: a name with a slash is a path itself, any other name is
looked up in the directories that the environment names. -/
def programPaths (env : Config.Environment) (name : Text) : List Text :=
  if name.contains 0x2F then [name]
  else
    let search := (env.lookup (Text.ofString "PATH")).getD standardSearch
    if search.isEmpty then []
    else (Text.splitOn 0x3A search).map fun directory => Path.inside directory name

variable {m : Type → Type} [Monad m]

/-- The name is that of something that is there, or of a program. -/
def finds (host : Host m) (name : Text) : m Bool := do
  if ← host.isThere (Path.normal name) then return true
  (programPaths (← host.environment) name).anyM fun path => host.isProgram (Path.normal path)

end Host

end XofConformance.CommandLine
