import XofConformance.Bytes.Base64
import XofConformance.Number.Arithmetic
import XofConformance.Number.Literal
import XofConformance.Text.Quoted
import XofConformance.Yaml.Kind

/-!
# Scalar values

The value of a scalar is read from its content by its kind. Scalar values may be keys of mappings:
a truth value is the same key as 0 or 1, and two points in time with an offset are the same key
if they are the same instant.
-/

namespace XofConformance.Yaml

/-- A value that holds no other values. -/
inductive Scalar
  | null
  | bool (b : Bool)
  | number (n : Number)
  | text (t : Text)
  | bytes (b : Bytes)
  | timestamp (stamp : Timestamp)
  deriving DecidableEq, Inhabited

namespace Scalar

/-! ## Keys -/

/-- The number that a value counts as. -/
def numeric? : Scalar → Option Number
  | .bool b => some (.int (if b then 1 else 0))
  | .number n => some n
  | _ => none

/-- The instant of a point in time and of which sort it is: a date, a local time, or a time with
an offset. -/
def moment (stamp : Timestamp) : Nat × Int :=
  match stamp.time with
  | none => (0, Timestamp.Date.days stamp.date)
  | some t => (if t.offset.isNone then 1 else 2, Timestamp.instant stamp.date t)

/-- Equality of keys. -/
def same (a b : Scalar) : Bool :=
  match a.numeric?, b.numeric? with
  | some m, some n => m.worth == n.worth
  | none, none =>
    match a, b with
    | .timestamp s, .timestamp t => moment s == moment t
    | a, b => a == b
  | _, _ => false

/-- The order of two keys of one sort; keys of different sorts have none. -/
def less? (a b : Scalar) : Option Bool :=
  match a.numeric?, b.numeric?, a, b with
  | some m, some n, _, _ => some (m.lt n)
  | _, _, .text s, .text t => some (decide (s < t))
  | _, _, .bytes s, .bytes t => some (decide (s.map UInt8.toNat < t.map UInt8.toNat))
  | _, _, .timestamp s, .timestamp t =>
    if (moment s).1 = (moment t).1 then some (decide ((moment s).2 < (moment t).2)) else none
  | _, _, _, _ => none

/-- Bytes between quotes after a `b`. -/
def quotedBytes (b : Bytes) : Text :=
  let codes := b.map UInt8.toNat
  let quote := Text.quoteFor codes
  let char (c : Nat) : Text := if c < 0x80 then Text.quotedChar quote c else "\\x" ++ Text.ofHex 2 c
  Text.concat ["b", [quote], codes.flatMap char, [quote]]

/-- The value as a message quotes it. -/
def quoted : Scalar → Text
  | .null => "None"
  | .bool b => if b then "True" else "False"
  | .number n => n.text
  | .text t => t.quoted
  | .bytes b => quotedBytes b
  | .timestamp stamp => stamp.text

/-! ## Reading -/

/-- The value of an optional reading; a number that cannot be read is malformed. -/
def orMalformed {α : Type} : Option α → Except ReadFault α
  | some a => .ok a
  | none => .error (.scalar .malformed)

/-- The integer that digits of a base spell, after blanks, a sign, and a zero with the letter of
the base. -/
def readBased? (base : Nat) (letter : CodePoint) (t : Text) : Option Int :=
  let (negative, body) := Number.readSign ((Text.trim Number.isAround t).map Number.plainDigit)
  let digits := match body with
    | 0x30 :: c :: rest => if Text.lowerSimple c = letter then rest else body
    | _ => body
  let isBad (c : CodePoint) : Bool := (Text.hexValue? c).all fun v => base ≤ v
  if digits.isEmpty || digits.any isBad then none
  else
    let n : Int := Text.digitsValue base (fun c => (Text.hexValue? c).getD 0) digits
    some (if negative then -n else n)

/-- A number without its sign: whether that is a minus, and the rest. -/
def splitSign (t : Text) : Except ReadFault (Bool × Text) :=
  if t.isEmpty then .error (.scalar .empty) else .ok (Number.readSign t)

/-- An integer in steps of sixty. -/
def sixtieths (parts : List Int) : Int := parts.foldl (fun n part => n * 60 + part) 0

/-- The integer that a scalar spells. -/
def readInt (content : Text) : Except ReadFault Int := do
  let (negative, t) ← splitSign (content.filter (· != 0x5F))
  let n ←
    if t = Text.ofString "0" then pure 0
    else if t.take 2 = Text.ofString "0b" then orMalformed (readBased? 2 0x62 (t.drop 2))
    else if t.take 2 = Text.ofString "0x" then orMalformed (readBased? 16 0x78 (t.drop 2))
    else if t.isEmpty then throw (.scalar .empty)
    else if t.head? = some 0x30 then orMalformed (readBased? 8 0x6F t)
    else if t.contains 0x3A then
      sixtieths <$> (Text.splitOn 0x3A t).mapM fun part => orMalformed (Number.readInt? part)
    else orMalformed (Number.readInt? t)
  return if negative then -n else n

/-- A value in steps of sixty, the last part first: each part is multiplied and added in turn. -/
def sixtiethsFloat : Nat → Binary64 → List Binary64 → Except ReadFault Binary64
  | _, sum, [] => .ok sum
  | unit, sum, part :: rest =>
    match Binary64.ofInt? unit with
    | none => .error (.scalar .tooLarge)
    | some u => sixtiethsFloat (unit * 60) (sum.add (part.mul u)) rest

/-- The binary64 value that a scalar spells. -/
def readFloat (content : Text) : Except ReadFault Binary64 := do
  let (negative, t) ← splitSign (Text.lower (content.filter (· != 0x5F)))
  let sign (x : Binary64) : Binary64 := if negative then x.negate else x
  if t = Text.ofString ".inf" then return .infinite negative
  else if t = Text.ofString ".nan" then return .nan
  else if t.contains 0x3A then
    let parts ← (Text.splitOn 0x3A t).mapM fun part => orMalformed (Number.readFloat? part)
    return sign (← sixtiethsFloat 1 (.finite 0) parts.reverse)
  else return sign (← orMalformed (Number.readFloat? t))

/-- The truth value that a scalar spells. -/
def readBool (content : Text) : Except ReadFault Bool :=
  let word := Text.lower content
  if Kind.isWord ["yes", "true", "on"] word then .ok true
  else if Kind.isWord ["no", "false", "off"] word then .ok false
  else .error (.scalar .unknownWord)

/-- The value of a scalar of a kind; a collection is none. -/
def ofContent (kind : Kind) (content : Text) : Except ReadFault Scalar :=
  match kind with
  | .null => .ok .null
  | .bool => .bool <$> readBool content
  | .int => (fun n => .number (.int n)) <$> readInt content
  | .float => (fun x => .number (.float x)) <$> readFloat content
  | .text => .ok (.text content)
  | .binary =>
    match Bytes.ofBase64? content with
    | some b => .ok (.bytes b)
    | none => .error .malformed
  | .timestamp => .timestamp <$> Timestamp.ofText content
  | _ => .error .malformed

end Scalar

end XofConformance.Yaml
