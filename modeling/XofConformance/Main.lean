import XofConformance.CommandLine.Run
import XofConformance.Text.Utf8

/-!
# The program

Runs a vector set on the machine this program runs on. An actor is not started from here: it
listens at two pipes beside its file, reads requests from `<actor>.in` and writes its replies to
`<actor>.out`.
-/

namespace XofConformance.Program

open CommandLine

/-- A text as a string. -/
def string (t : Text) : String := String.ofList (t.map Char.ofNat)

/-! ## Files -/

/-- The operating system's code for a file that stands where a directory has to. -/
def notDirectoryCode : UInt32 := 20

/-- Carries out what may fail with the fault of a file; other errors are passed on. -/
def withFaults {α : Type} (action : IO α) : IO (Except FileFault α) := do
  try
    return .ok (← action)
  catch e =>
    match e with
    | .noFileOrDirectory .. => return .error .missing
    | .alreadyExists .. => return .error .occupied
    | .inappropriateType _ code _ =>
      return .error (if code == notDirectoryCode then .notDirectory else .directory)
    | e => throw e

/-- Something at the path can be opened. -/
def isThere (path : Text) : IO Bool := do
  try
    discard (IO.FS.Handle.mk (string path) .read)
    return true
  catch _ => return false

/-- Something at the path can be opened and read, so it is a file. -/
def isFile (path : Text) : IO Bool := do
  try
    discard ((← IO.FS.Handle.mk (string path) .read).read 1)
    return true
  catch _ => return false

/-- Reads a file. -/
def read (path : Text) : IO (Except FileFault Bytes) :=
  withFaults do return (← IO.FS.readBinFile (string path)).toList

/-- Writes a file and the directories around it. -/
def write (path content : Text) : IO (Except FileFault Unit) :=
  withFaults do
    if let some directory := (Path.ancestors path).getLast? then
      IO.FS.createDirAll (string directory)
    IO.FS.writeFile (string path) (string content)

/-! ## The environment -/

/-- The variables that count. -/
def countedNames : List String :=
  ["XOFV_ACTOR", "XOFV_ACTOR_ARGS", "XOFV_WORKERS", "XOFV_TIMEOUT_SECS", "PATH"]

/-- The variables that count and are set. -/
def environment : IO Config.Environment :=
  countedNames.filterMapM fun (name : String) => do
    return (← IO.getEnv name).map fun value => (Text.ofString name, Text.ofString value)

/-! ## Actors -/

/-- How long to sleep between two looks at what an actor has written, in milliseconds. -/
def pause : UInt32 := 5

/-- How many looks there are in a number of seconds; without end if there is no limit. -/
def looks : Binary64 → Option Nat
  | .finite x =>
    let (negative, num, den) := Binary64.ratio x
    some (if negative then 0 else num * 1000 / (den * pause.toNat))
  | .infinite false => none
  | _ => some 0

/-- Waits for a line that is being read. -/
def await (reading : Task (Except IO.Error String)) : Nat → IO Actor.Received
  | 0 => return .silence
  | n + 1 => do
    if ← IO.hasFinished reading then
      match reading.get with
      | .ok "" => return .ended none
      | .ok line => return .line (Text.ofString line)
      | .error _ => return .garbled
    else
      IO.sleep pause
      await reading n

/-- Waits for a line without limit if none is given. -/
def awaitFor (limit : Option Nat) (reading : Task (Except IO.Error String)) :
    IO Actor.Received := do
  match limit with
  | some n => await reading (n + 1)
  | none =>
    discard (IO.wait reading)
    await reading 1

/-- Writes a line to an actor. -/
def send (input : IO.FS.Handle) (line : Text) : IO (Except Text Unit) := do
  try
    input.putStr (string line)
    input.flush
    return .ok ()
  catch e => return .error (Text.ofString e.toString)

/-- The next thing that comes from an actor; a line that was waited for in vain is waited for
again. -/
def receive (output : IO.FS.Handle) (limit : Option Nat)
    (pending : IO.Ref (Option (Task (Except IO.Error String)))) : IO Actor.Received := do
  let reading ← match ← pending.get with
    | some reading => pure reading
    | none => IO.asTask output.getLine .dedicated
  let received ← awaitFor limit reading
  pending.set (if received = .silence then some reading else none)
  return received

/-- The channel to an actor. -/
def start (c : Config) : IO (Except Text (Actor.Channel IO)) := do
  try
    let input ← IO.FS.Handle.mk (string (c.actor ++ Text.ofString ".in")) .write
    let output ← IO.FS.Handle.mk (string (c.actor ++ Text.ofString ".out")) .read
    let pending ← IO.mkRef none
    return .ok { send := send input, receive := receive output (looks c.timeoutSecs) pending }
  catch e => return .error (Text.ofString e.toString)

/-! ## The host -/

/-- The machine this program runs on. -/
def host : Host IO where
  isThere := isThere
  isProgram := isFile
  read := read
  write := write
  environment := environment
  loader := Yaml.Value.ofText
  start := start
  inform line := IO.println (string line)
  complain line := IO.eprintln (string line)

end XofConformance.Program

open XofConformance CommandLine in
/-- Runs a vector set as the command line says. -/
def main (arguments : List String) : IO UInt32 := do
  match Options.ofArguments (arguments.map Text.ofString) with
  | .error usage =>
    IO.eprintln (Program.string Usage.words)
    return usage.exitCode.toUInt32
  | .ok options =>
    match ← run Program.host options with
    | .ok code => return code.toUInt32
    | .error why =>
      IO.eprintln (Program.string why.message)
      return 1
