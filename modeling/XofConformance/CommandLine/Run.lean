import XofConformance.Algorithm
import XofConformance.CommandLine.Arguments
import XofConformance.CommandLine.Host
import XofConformance.CommandLine.Report
import XofConformance.Junit
import XofConformance.Run.Process
import XofConformance.VectorSet.Reader

/-!
# A run

The vector set is read, the actor is started and asked, and the response is written; then the
response is compared with what is expected, if that is known. Whatever fault stops the run, the
report tells it. Nothing is written if the vector set or the expected results are not there, and a
use that the domain does not foresee ends the run without a report.
-/

namespace XofConformance.CommandLine

variable {m : Type → Type} [Monad m]

/-- A part of a run that may stop it, and what it finds out. -/
abbrev Stage (m : Type → Type) := ExceptT Fault (StateT Facts m)

/-- What a host does, within a run. -/
def onHost {α : Type} (x : m α) : Stage m α := ExceptT.lift (StateT.lift x)

/-- What may fail with a fault, within a run. -/
def orStop {α : Type} (x : Except Fault α) : Stage m α := ExceptT.mk (pure x)

/-- A file that has to be readable. -/
def readFile (host : Host m) (path : Text) : Stage m Bytes := do
  match ← onHost (host.read (Path.normal path)) with
  | .ok b => return b
  | .error why => throw (.defect (.file why))

/-- A file that has to be writable. -/
def writeFile (host : Host m) (path content : Text) : Stage m Unit := do
  match ← onHost (host.write (Path.normal path) content) with
  | .ok () => return
  | .error why => throw (.defect (.file why))

/-! ## Stages -/

/-- What the command line says about the settings. -/
def Options.settings (o : Options) : Config.Entries :=
  (o.actor.toList.map fun t => (.text "actor", .scalar (.text t)))
    ++ o.workers.toList.map fun n => (.text "workers", .scalar (.number (.int n)))

/-- The settings of a run: those of the file, the environment and the command line, in layers. -/
def configure (host : Host m) (o : Options) : Stage m Config := do
  let file ← match o.config with
    | none => pure none
    | some path =>
      let path := Path.normal path
      pure (some { path, content := ← onHost (host.read path) })
  let c ← orStop (Config.load file (← onHost host.environment) host.loader)
  let c ← orStop (c.override o.settings)
  modify fun facts => { facts with actor := some c.actor }
  return c

/-- A vector set and the algorithm it is run for. -/
structure Task where
  vectors : VectorSet
  algorithm : Algorithm

/-- Reads what is to be run. -/
def readTask (host : Host m) (o : Options) : Stage m Task := do
  let vectors ← orStop (VectorSet.ofDocument (.bytes (← readFile host o.vectors)))
  let name := (o.algorithm <|> vectors.algorithm).getD []
  let algorithm ← orStop (Algorithm.ofName (some name))
  modify fun facts => { facts with
    algorithm := some algorithm.name
    groups := vectors.groups.length
    tests := vectors.testCount }
  return { vectors, algorithm }

/-- Runs a vector set over a channel to an actor. -/
def Task.answer (t : Task) (seconds : Binary64) (channel : Actor.Channel m) :
    m (Except Fault (List GroupResponse)) := do
  let env : Setting (Desk Unit) (StateT Actor.Link m) := { subject := channel.subject seconds }
  let ((r, _), _) ← ((t.vectors.run env t.algorithm.name).run { client := { extra := () } }).run {}
  return r

/-- Starts the actor and has it answer. -/
def ask (host : Host m) (c : Config) (t : Task) : Stage m (List GroupResponse) := do
  if !(← onHost (host.finds c.actor)) then throw (.config (.absentActor c.actor))
  match ← onHost (host.start c) with
  | .error reason => throw (.subject (.actor (.notStarted c.actor reason)))
  | .ok channel => orStop (← onHost (t.answer c.timeoutSecs channel))

/-- The groups of a response as they are written. -/
def groupsJson (groups : List GroupResponse) : List Json := groups.map GroupResponse.toJson

/-- The response of a task. -/
def Task.response (t : Task) (groups : List GroupResponse) : Json :=
  Envelope.wrap t.vectors t.algorithm.name (groupsJson groups)

/-- Compares the answers with what is expected. -/
def judge (host : Host m) (o : Options) (t : Task) (groups : List GroupResponse) :
    Stage m Verdict := do
  match o.expected with
  | none => return .unchecked
  | some path =>
    let expected := Document.bytes (← readFile host path)
    let r ← orStop (Comparison.compareResponses (.array (groupsJson groups)) expected)
    if let some junit := o.junit then
      let suite := "xof." ++ t.algorithm.name
      writeFile host junit (← orStop (Junit.report suite (r.cases.map (·.toJson))))
    return .compared r

/-- The stages in their order; the response is written before it is judged. -/
def stages (host : Host m) (o : Options) : Stage m Verdict := do
  let c ← configure host o
  let t ← readTask host o
  let groups ← ask host c t
  if let some path := o.out then writeFile host path (Json.fileText (t.response groups))
  judge host o t groups

/-! ## The run -/

/-- What a run comes to: an exit code, or a use that the domain does not foresee. -/
abbrev Ending := Except Defect Nat

/-- Tells the user how the run ended, and writes the report. -/
def conclude (host : Host m) (path : Text) (r : Report) : m Ending := do
  (r.complaints).forM host.complain
  if r.ok then host.inform r.successLine
  match ← host.write (Path.normal path) (Json.fileText r.toJson) with
  | .ok () => return .ok r.exitCode
  | .error why => return .error (.file why)

/-- A run of a vector set that is there. -/
def runPresent (host : Host m) (o : Options) : m Ending := do
  let (verdict, facts) ← (stages host o).run { vectorsFile := Path.normal o.vectors }
  match verdict with
  | .error (.defect why) => return .error why
  | .error fault => conclude host o.report { facts, verdict := .stopped fault }
  | .ok verdict => conclude host o.report { facts, verdict }

/-- Some file that has to be there before a run starts is not: what is said about it. -/
def absence (host : Host m) (o : Options) : m (Option Text) := do
  let vectors := Path.normal o.vectors
  if !(← host.isThere vectors) then return some ("ERROR: vectors not found: " ++ vectors)
  match o.expected with
  | none => return none
  | some path =>
    if ← host.isThere (Path.normal path) then return none
    return some ("ERROR: expected results not found: " ++ path)

/-- The exit code if a file is not there. -/
def absentCode : Nat := 2

/-- A run of the command line. -/
def run (host : Host m) (o : Options) : m Ending := do
  match ← absence host o with
  | some words =>
    host.complain words
    return .ok absentCode
  | none => runPresent host o

end XofConformance.CommandLine
