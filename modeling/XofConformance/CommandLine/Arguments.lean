import XofConformance.Number.Literal

/-!
# Arguments of the command line

Each option has a long name, which may be cut as long as it is clear, and a value, which follows
or stands after an equals sign. If an option is given twice, the last value counts. An empty value
says nothing where a value may be missing. All words are told apart before the first is obeyed.
-/

namespace XofConformance.CommandLine

/-- What to do in a run. -/
structure Options where
  vectors : Text
  config : Option Text := none
  actor : Option Text := none
  algorithm : Option Text := none
  workers : Option Int := none
  out : Option Text := none
  expected : Option Text := none
  report : Text
  junit : Option Text := none
  deriving DecidableEq

/-- Why there is no run: help was asked for, or the arguments make no sense. -/
inductive Usage
  | help
  | wrong
  deriving DecidableEq

/-- The exit code after words about the usage. -/
def Usage.exitCode : Usage → Nat
  | .help => 0
  | .wrong => 2

/-- The options in words. -/
def Usage.words : Text :=
  Text.join " " ["usage:", "--vectors FILE", "[--config FILE]", "[--actor NAME]",
    "[--algorithm NAME]", "[--workers NUMBER]", "[--out FILE]", "[--expected FILE]",
    "[--report FILE]", "[--junit FILE]"]

/-! ## Words -/

/-- The options. -/
inductive Flag
  | help
  | vectors
  | config
  | actor
  | algorithm
  | workers
  | out
  | expected
  | report
  | junit
  deriving DecidableEq

/-- The options by their long names. -/
def Flag.names : List (Text × Flag) :=
  [("--help", .help), ("--vectors", .vectors), ("--config", .config), ("--actor", .actor),
    ("--algorithm", .algorithm), ("--workers", .workers), ("--out", .out),
    ("--expected", .expected), ("--report", .report), ("--junit", .junit)]

/-- One word of a command line. -/
inductive Word
  /-- A value, or something that belongs nowhere. -/
  | plain (t : Text)
  /-- An option, and the value behind its equals sign. -/
  | flag (f : Flag) (value : Option Text)
  /-- The short form of the option for help, and what is written behind it. -/
  | shortHelp (rest : Text)
  | unknown
  deriving DecidableEq

/-- The word is a number below zero. -/
def isNegativeNumber (t : Text) : Bool :=
  let body := t.drop 1
  let whole := body.takeWhile Text.isDigit
  t.head? == some 0x2D &&
    match body.drop whole.length with
    | [] => !whole.isEmpty
    | c :: fraction => c == 0x2E && !fraction.isEmpty && fraction.all Text.isDigit

/-- The long options that a cut name may stand for; a whole name stands for itself alone. -/
def Flag.candidates (name : Text) : List Flag :=
  match Flag.names.lookup name with
  | some f => [f]
  | none => (Flag.names.filter fun p => p.1.take name.length == name).map (·.2)

/-- A word that starts with a hyphen. -/
def readHyphenated (t : Text) : Except Usage Word :=
  let isLong := t.take 2 == Text.ofString "--"
  let name := if isLong then Text.before 0x3D t else t
  let value := if name.length < t.length then some (t.drop (name.length + 1)) else none
  match if isLong then Flag.candidates name else [] with
  | [f] => .ok (.flag f value)
  | _ :: _ :: _ => .error .wrong
  | [] =>
    if t.take 2 = Text.ofString "-h" then .ok (.shortHelp (t.drop 2))
    else if t.length ≤ 1 || isNegativeNumber t || t.contains 0x20 then .ok (.plain t)
    else .ok .unknown

/-- The words of a command line; behind two hyphens there are no options. -/
def readWords : List Text → Except Usage (List Word)
  | [] => .ok []
  | t :: rest =>
    if t = Text.ofString "--" then .ok (.unknown :: rest.map .plain)
    else do
      let word ← if t.head? = some 0x2D then readHyphenated t else .ok (.plain t)
      return word :: (← readWords rest)

/-! ## Values -/

/-- The values given so far, latest first, and whether something belonged nowhere. -/
structure Given where
  values : List (Flag × Text) := []
  surplus : Bool := false

/-- A value is given to an option; the number of workers has to be an integer. -/
def Given.add (f : Flag) (value : Text) (g : Given) : Except Usage Given :=
  if f = .workers ∧ (Number.readInt? value).isNone then .error .wrong
  else .ok { g with values := (f, value) :: g.values }

/-- Obeys the words one after the other. -/
def Given.take (g : Given) : List Word → Except Usage Given
  | [] => .ok g
  | .flag .help value :: _ => .error (if value.isNone then .help else .wrong)
  | .shortHelp rest :: _ => .error (if rest.all (· == 0x68) then .help else .wrong)
  | .flag f (some value) :: rest => do (← g.add f value).take rest
  | .flag f none :: .plain value :: rest => do (← g.add f value).take rest
  | .flag _ none :: _ => .error .wrong
  | _ :: rest => { g with surplus := true }.take rest

/-- The value of an option. -/
def Given.value? (f : Flag) (g : Given) : Option Text := g.values.lookup f

/-- The value of an option, unless it is empty. -/
def Given.filled? (f : Flag) (g : Given) : Option Text := (g.value? f).filter (!·.isEmpty)

/-- Where the report goes if nothing else is said. -/
def standardReport : Text := "artifacts/xof/vector_report.json"

/-- The options of a command line. -/
def Options.ofArguments (arguments : List Text) : Except Usage Options := do
  let g ← Given.take {} (← readWords arguments)
  match g.value? .vectors with
  | none => throw .wrong
  | some vectors =>
    if g.surplus then throw .wrong
    return {
      vectors
      config := g.filled? .config
      actor := g.filled? .actor
      algorithm := g.filled? .algorithm
      workers := (g.value? .workers).bind Number.readInt?
      out := g.filled? .out
      expected := g.filled? .expected
      report := (g.value? .report).getD standardReport
      junit := g.filled? .junit }

end XofConformance.CommandLine
