import XofConformance.Json.Reader
import XofConformance.Json.Display
import XofConformance.Text.Utf8
import XofConformance.Yaml.Fault

/-!
# Faults

Why a run stops, as causes. A `Fault` of one of the first six kinds belongs to the domain: it has
a reason code and a message for the report. A `Defect` is a use that the domain does not foresee;
it ends whatever is going on, and when it happens while the subject works on a call, it counts
as a failure of the subject.
-/

namespace XofConformance

/-! ## Causes -/

/-- Why a text or a number has no encoding. -/
inductive EncodingFault
  | oddLength (length : Nat)
  | alphabet
  | wordRange (n : Number)
  | wordLength (length : Nat)
  /-- The subject says so, in these words. -/
  | told (message : Text)

/-- The two documents that a comparison reads. -/
inductive Side
  | expected
  | response
  deriving DecidableEq

/-- What one value of a vector set gets wrong. -/
inductive ShapeDefect
  | kind (value : Json) (name : Text)
  | missing (key : Text)
  | below (value : Json) (least : Nat)
  | above (value : Json) (greatest : Nat)

/-- A defect and the keys and indices that lead to it. -/
structure Violation where
  path : List Text
  defect : ShapeDefect

/-- Why a document is no vector set, no list of expected results, or names no algorithm. -/
inductive InputFault
  | notUtf8 (fault : Text.Utf8Fault)
  | notJson (fault : Json.ReadFault)
  | entryNotObject
  | noBody
  | shape (violations : List Violation)
  | algorithm (name : Option Text) (known : List Text)
  | expectedNotObject
  | groupsNotList (side : Side)
  | testsNotList (side : Side)
  | told (message : Text)

/-- What is wrong with a test case. -/
inductive CaseDefect
  | twoCustomizations
  | customization (why : EncodingFault)
  | content (why : EncodingFault)
  | length (digits : Nat) (bits : Number)
  | fractionalOutput (bits : Number)

/-- What is wrong with a test group as a whole. -/
inductive GroupDefect
  | unknownType (name : Text)
  | missingBound (name : Text)
  | fractionalBound (name : Text) (bits : Number)
  | boundOrder (least greatest : Number)

/-- Why a vector set cannot be run. -/
inductive VectorFault
  | repeatedGroup (tgId : Number)
  | group (tgId : Number) (why : GroupDefect)
  | repeatedCase (tgId tcId : Number)
  | inCase (tgId tcId : Number) (why : CaseDefect)
  | told (message : Text)

/-- Why an actor cannot be asked, or what is wrong with its answer. -/
inductive ActorFault
  | notStarted (actor reason : Text)
  | noStdout
  | noStdin
  | notJson (fault : Json.ReadFault)
  | unknownId (id : Json)
  | terminated (code : Option Int)
  | stdinClosed (reason : Text)
  | noOutputs
  | badOutput (why : EncodingFault)
  | refused (message : Text)
  | silent (op : Text) (seconds : Binary64)

/-- Why a file cannot be read or written. -/
inductive FileFault
  | missing
  | directory
  /-- A file stands where a directory has to. -/
  | notDirectory
  /-- A file stands where a directory is to be made. -/
  | occupied
  deriving DecidableEq

/-- Uses that the domain does not foresee. -/
inductive Defect
  /-- A lone surrogate has no UTF-8 form. -/
  | unencodable
  /-- The configuration file is not UTF-8. -/
  | undecodable
  /-- A binary64 value is no word, whatever it is worth. -/
  | fractionalWord
  /-- An array or an object stands where an identifier has to. -/
  | unhashable
  /-- Something without a length stands for a list. -/
  | uncountable
  /-- Keys of several kinds have no order. -/
  | unordered
  /-- A quote is left open, or nothing follows an escape. -/
  | unclosed
  /-- A number does not fit into a binary64 value. -/
  | overflow
  /-- A scalar of a configuration file is no value of its kind. -/
  | badScalar (why : Yaml.ScalarDefect)
  /-- A field that has to be there is missing. -/
  | missingField
  /-- Something that is not an object is asked for a field. -/
  | notObject
  /-- Something that is not a text stands for one. -/
  | notText
  /-- The pool takes no calls any more. -/
  | poolClosed
  /-- A slot is filled that does not exist. -/
  | slotRange
  /-- A file cannot be read or written. -/
  | file (why : FileFault)
  /-- Raised outside this library: its kind and its words. -/
  | raised (kind message : Text)

/-- Why the subject gives no result that can be used. -/
inductive SubjectFault
  | crashed (why : Defect)
  | resultCount (op : Text) (expected : Int) (got : Nat)
  | monteCarlo (algorithm cause : Text)
  | missingResults (tgId : Number) (count : Nat)
  | actor (why : ActorFault)
  | told (message : Text)

/-- Why there is no usable configuration. -/
inductive ConfigFault
  | unexpectedKeys (keys : List Text)
  | actor
  | actorArgs
  | workers
  | timeout
  | variable (name reason : Text)
  | unreadable (path : Text) (why : FileFault)
  | unparsable (path : Text)
  | notMapping
  | absentActor (path : Text)
  | told (message : Text)

/-- Why a run stops. -/
inductive Fault
  | general (message : Text)
  | encoding (why : EncodingFault)
  | input (why : InputFault)
  | vector (why : VectorFault)
  | subject (why : SubjectFault)
  | config (why : ConfigFault)
  | defect (why : Defect)

/-! ## Messages -/

/-- The cause in words. -/
def EncodingFault.message : EncodingFault → Text
  | .oddLength n => "hex string has odd length " ++ Text.ofNat n
  | .alphabet => "invalid hex alphabet"
  | .wordRange n => "u32 out of range: " ++ n.text
  | .wordLength n =>
    Text.concat ["expected 4-byte little-endian u32, got ", Text.ofNat n, " bytes"]
  | .told message => message

/-- The name of a document in messages. -/
def Side.message : Side → Text
  | .expected => "expected results"
  | .response => "response"

/-- The defect in words. -/
def ShapeDefect.message : ShapeDefect → Text
  | .kind v name => Text.concat [v.quoted, " is not of type ", name.quoted]
  | .missing key => key.quoted ++ " is a required property"
  | .below v least => Text.concat [v.quoted, " is less than the minimum of ", Text.ofNat least]
  | .above v greatest =>
    Text.concat [v.quoted, " is greater than the maximum of ", Text.ofNat greatest]

/-- The defect in words, after the place it stands at. -/
def Violation.message (v : Violation) : Text :=
  Text.concat [if v.path.isEmpty then "(root)" else Text.join "/" v.path, ": ", v.defect.message]

/-- How many violations a message names. -/
def maxViolations : Nat := 10

/-- Names in brackets, each between quotes. -/
def nameList (names : List Text) : Text :=
  Text.concat ["[", Text.join ", " (names.map Text.quoted), "]"]

/-- The cause in words. -/
def InputFault.message : InputFault → Text
  | .notUtf8 f => "vector set is not valid UTF-8: " ++ f.message
  | .notJson f => "json_parse: " ++ f.message
  | .entryNotObject => "ACVP framing: array entries must be objects"
  | .noBody => "ACVP framing: no object with 'testGroups'"
  | .shape violations =>
    "vector set does not match schema: "
      ++ Text.join "; " ((violations.take maxViolations).map Violation.message)
  | .algorithm name known =>
    Text.concat ["unsupported algorithm ", (Json.ofOption .text name).quoted,
      "; expected one of ", nameList known]
  | .expectedNotObject => "expected results must be an object"
  | .groupsNotList side => side.message ++ ": 'testGroups' must be a list"
  | .testsNotList side => side.message ++ ": test group missing 'tests' list"
  | .told message => message

/-- A case in messages: its group and its own number. -/
def caseName (tgId tcId : Number) : Text := Text.concat [tgId.text, "/", tcId.text]

/-- The defect of a case in words. -/
def CaseDefect.message (tgId tcId : Number) : CaseDefect → Text
  | .twoCustomizations =>
    Text.concat ["test case ", caseName tgId tcId,
      " has both customization and hex customization"]
  | .customization why =>
    Text.concat ["test case ", caseName tgId tcId, " has invalid customization: ", why.message]
  | .content why =>
    Text.concat ["failed to decode hex in test case ", caseName tgId tcId, ": ", why.message]
  | .length digits bits =>
    Text.concat ["test case ", caseName tgId tcId, " contains hex message of length ",
      Text.ofNat digits, " but specifies a bit length of ", bits.text]
  | .fractionalOutput bits =>
    Text.concat ["test case ", caseName tgId tcId, " has bit length ", bits.text,
      " - fractional bytes not supported"]

/-- The defect of a group in words. -/
def GroupDefect.message (tgId : Number) : GroupDefect → Text
  | .unknownType name =>
    Text.concat ["test group ", tgId.text, " has unknown type ", name.quoted]
  | .missingBound name => Text.concat ["MCT test group ", tgId.text, " is missing ", name]
  | .fractionalBound name bits =>
    Text.concat ["MCT test group ", tgId.text, " has ", name, " ", bits.text,
      " - fractional bytes not supported"]
  | .boundOrder least greatest =>
    Text.concat ["MCT test group ", tgId.text, " has minOutLen ", least.text,
      " above maxOutLen ", greatest.text]

/-- The cause in words. -/
def VectorFault.message : VectorFault → Text
  | .repeatedGroup tgId => "vector set repeats tgId " ++ tgId.text
  | .group tgId why => why.message tgId
  | .repeatedCase tgId tcId =>
    Text.concat ["test group ", tgId.text, " repeats tcId ", tcId.text]
  | .inCase tgId tcId why => why.message tgId tcId
  | .told message => message

/-- The group at fault. -/
def VectorFault.tgId? : VectorFault → Option Number
  | .repeatedGroup tgId | .group tgId _ | .repeatedCase tgId _ | .inCase tgId _ _ => some tgId
  | .told _ => none

/-- The case at fault, if the fault is in a case. -/
def VectorFault.tcId? : VectorFault → Option Number
  | .repeatedCase _ tcId | .inCase _ tcId _ => some tcId
  | _ => none

/-- The cause in words. -/
def ActorFault.message : ActorFault → Text
  | .notStarted actor reason => Text.concat ["cannot start actor ", actor, ": ", reason]
  | .noStdout => "actor stdout is not a pipe"
  | .noStdin => "actor stdin is not a pipe"
  | .notJson f => "actor wrote non-JSON output: " ++ f.message
  | .unknownId id => "actor response with unknown id: " ++ id.quoted
  | .terminated code =>
    Text.concat ["actor terminated unexpectedly (exit=", (Json.ofOption Json.int code).shown, ")"]
  | .stdinClosed reason => "actor stdin closed: " ++ reason
  | .noOutputs => "actor result missing 'outputs' list of hex strings"
  | .badOutput why => "bad result encoding: " ++ why.message
  | .refused message => message
  | .silent op seconds =>
    Text.concat [op, ": no response from actor within ", seconds.text, "s"]

/-- The fault of a file in words. -/
def FileFault.message (path : Text) : FileFault → Text
  | .missing => "[Errno 2] No such file or directory: " ++ path.quoted
  | .directory => "[Errno 21] Is a directory: " ++ path.quoted
  | .notDirectory => "[Errno 20] Not a directory: " ++ path.quoted
  | .occupied => "[Errno 17] File exists: " ++ path.quoted

/-- A defect in the words of a report, where it happens inside a call. -/
def Defect.message : Defect → Text
  | .raised kind message => Text.concat [kind, ": ", message]
  | .slotRange => "IndexError: list assignment index out of range"
  | _ => "unforeseen use"

/-- The cause in words. -/
def SubjectFault.message : SubjectFault → Text
  | .crashed why => why.message
  | .resultCount op expected got =>
    Text.concat [op, ": expected ", Text.ofInt expected, " results, got ", Text.ofNat got]
  | .monteCarlo algorithm cause => Text.concat [algorithm, " mct operation failed: ", cause]
  | .missingResults tgId count =>
    Text.concat ["test group ", tgId.text, " has ", Text.ofNat count,
      " test(s) without a result"]
  | .actor why => why.message
  | .told message => message

/-- The cause in words. -/
def ConfigFault.message : ConfigFault → Text
  | .unexpectedKeys keys => Text.concat ["unexpected config keys: [", Text.join ", " keys, "]"]
  | .actor => "actor: must be a non-empty string"
  | .actorArgs => "actor_args: must be a list of strings"
  | .workers => "workers: must be an integer >= 1"
  | .timeout => "timeout_secs: must be a positive number"
  | .variable name reason => Text.concat [name, ": ", reason]
  | .unreadable path why => Text.concat ["cannot read config ", path, ": ", why.message path]
  | .unparsable path => "cannot read config " ++ path
  | .notMapping => "config file must be a mapping"
  | .absentActor path => "actor not found: " ++ path
  | .told message => message

/-- The fault in words. -/
def Fault.message : Fault → Text
  | .general message => message
  | .encoding why => why.message
  | .input why => why.message
  | .vector why => why.message
  | .subject why => why.message
  | .config why => why.message
  | .defect why => why.message

/-- The code of a fault in reports; a defect has none. -/
def Fault.reasonCode? : Fault → Option Text
  | .general _ => some (Text.ofString "vector_error")
  | .encoding _ => some (Text.ofString "malformed_encoding")
  | .input _ => some (Text.ofString "malformed_input")
  | .vector _ => some (Text.ofString "invalid_test_vector")
  | .subject _ => some (Text.ofString "subject_failure")
  | .config _ => some (Text.ofString "config_error")
  | .defect _ => none

/-- A fault as it is recorded against the subject: a defect counts as a crash. -/
def Fault.asFailure : Fault → Fault
  | .defect why => .subject (.crashed why)
  | f => f

end XofConformance
