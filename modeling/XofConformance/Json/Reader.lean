import XofConformance.Json.Basic
import XofConformance.Number.Literal

/-!
# Reading JSON

The whole text is one value between blanks. Besides the standard's forms the reader takes `NaN`,
`Infinity` and `-Infinity`, and an escape of a lone surrogate; it refuses control characters
inside strings and a leading byte order mark. A fault names the first place where no reading can
go on. A number with a fraction or an exponent is a binary64 value, any other an integer.

Values may be nested to any depth and integers may have any number of digits: the limits that an
interpreter sets on both, of some thousand levels and of 4300 digits, are not modelled. Beyond them
its reader would stop with an error that is none of the faults below.

Every step leaves a shorter text, so twice the length of the text bounds the number of steps.
-/

namespace XofConformance.Json

/-! ## Faults -/

/-- What is missing or wrong at a place. -/
inductive Problem
  | byteOrderMark
  | value
  | fieldName
  | colon
  | comma
  | extra
  | unterminated
  | control
  | badEscape
  | badUnicode
  deriving DecidableEq, Repr

/-- Where reading stops: the problem and the text that is left there. -/
structure Stop where
  problem : Problem
  rest : Text

/-- A problem with its place, counted in code points. -/
structure ReadFault where
  problem : Problem
  line : Nat
  column : Nat
  position : Nat
  deriving DecidableEq, Repr

/-- The problem in words. -/
def Problem.message : Problem → Text
  | .byteOrderMark => "Unexpected UTF-8 BOM (decode using utf-8-sig)"
  | .value => "Expecting value"
  | .fieldName => "Expecting property name enclosed in double quotes"
  | .colon => "Expecting ':' delimiter"
  | .comma => "Expecting ',' delimiter"
  | .extra => "Extra data"
  | .unterminated => "Unterminated string starting at"
  | .control => "Invalid control character at"
  | .badEscape => "Invalid \\escape"
  | .badUnicode => "Invalid \\uXXXX escape"

/-- The problem in words, with its place. -/
def ReadFault.message (f : ReadFault) : Text :=
  Text.concat [f.problem.message, ": line ", Text.ofNat f.line, " column ", Text.ofNat f.column,
    " (char ", Text.ofNat f.position, ")"]

/-! ## Words and blanks -/

/-- `c` may stand between the parts of a document. -/
def isSpace (c : CodePoint) : Bool := c == 0x20 || c == 0x09 || c == 0x0A || c == 0x0D

/-- The text after its leading blanks. -/
def skipSpace (t : Text) : Text := t.dropWhile isSpace

/-- The text after a word it starts with. -/
def dropWord? : Text → Text → Option Text
  | [], t => some t
  | _, [] => none
  | w :: word, c :: t => if w = c then dropWord? word t else none

/-- The values that are written as words. -/
def words : List (Text × Json) :=
  [("null", .null), ("true", .bool true), ("false", .bool false), ("NaN", .number (.float .nan)),
   ("Infinity", .number (.float (.infinite false))),
   ("-Infinity", .number (.float (.infinite true)))]

/-- The word that a text starts with. -/
def readWord? (t : Text) : Option (Json × Text) :=
  words.findSome? fun w => (dropWord? w.1 t).map fun rest => (w.2, rest)

/-! ## Numbers -/

/-- The digits of the integer part: a single zero or a run without a leading one. -/
def readInteger? : Text → Option (Text × Text)
  | [] => none
  | c :: rest =>
    if c = 0x30 then some ([c], rest)
    else if Text.isDigit c then
      some ((c :: rest).takeWhile Text.isDigit, (c :: rest).dropWhile Text.isDigit)
    else none

/-- The digits after a point, if there are any. -/
def readFraction? : Text → Option (Text × Text)
  | 0x2E :: rest =>
    let digits := rest.takeWhile Text.isDigit
    if digits.isEmpty then none else some (digits, rest.dropWhile Text.isDigit)
  | _ => none

/-- The number that a text starts with. -/
def readNumber? (t : Text) : Option (Number × Text) :=
  let (negative, t) := match t with
    | 0x2D :: rest => (true, rest)
    | _ => (false, t)
  match readInteger? t with
  | none => none
  | some (whole, rest) =>
    let (fraction, rest, hasFraction) := match readFraction? rest with
      | some (digits, rest) => (digits, rest, true)
      | none => ([], rest, false)
    let (exponent, rest, hasExponent) := match Number.readExponent? rest with
      | some (e, rest) => (e, rest, true)
      | none => (0, rest, false)
    if hasFraction || hasExponent then
      let digits := Text.decimalValue (whole ++ fraction)
      some (.float (Binary64.ofDecimal negative digits (exponent - fraction.length)), rest)
    else
      let n : Int := Text.decimalValue whole
      some (.int (if negative then -n else n), rest)

/-! ## Strings -/

/-- The code point of an escape of one letter. -/
def simpleEscape? (c : CodePoint) : Option CodePoint :=
  if c = 0x22 ∨ c = 0x5C ∨ c = 0x2F then some c
  else if c = 0x62 then some 0x08
  else if c = 0x66 then some 0x0C
  else if c = 0x6E then some 0x0A
  else if c = 0x72 then some 0x0D
  else if c = 0x74 then some 0x09
  else none

/-- The value of four hexadecimal digits. -/
def hex4? (a b c d : CodePoint) : Option Nat :=
  match Text.hexValue? a, Text.hexValue? b, Text.hexValue? c, Text.hexValue? d with
  | some a, some b, some c, some d => some (a * 0x1000 + b * 0x100 + c * 0x10 + d)
  | _, _, _, _ => none

/-- `c` begins a surrogate pair. -/
def isHigh (c : CodePoint) : Bool := 0xD800 ≤ c && c ≤ 0xDBFF

/-- `c` ends a surrogate pair. -/
def isLow (c : CodePoint) : Bool := 0xDC00 ≤ c && c ≤ 0xDFFF

/-- The code point that a surrogate pair stands for. -/
def joinPair (high low : CodePoint) : CodePoint := 0x10000 + (high - 0xD800) * 0x400 + (low - 0xDC00)

/-- The second half of a pair after a first half `high`: an escape that is followed by something
is read, and joined if it is a second half. -/
def readLow (high : CodePoint) (t : Text) : Except Stop (CodePoint × Text) :=
  match t with
  | 0x5C :: 0x75 :: a :: b :: c :: d :: e :: rest =>
    match hex4? a b c d with
    | some low =>
      if isLow low then .ok (joinPair high low, e :: rest) else .ok (high, t)
    | none => .error { problem := .badUnicode, rest := t.drop 1 }
  | _ => .ok (high, t)

/-- The code point of an escape whose `u` comes first in `t`. -/
def readUnicode (t : Text) : Except Stop (CodePoint × Text) :=
  match t with
  | _ :: a :: b :: c :: d :: e :: rest =>
    match hex4? a b c d with
    | some n => if isHigh n then readLow n (e :: rest) else .ok (n, e :: rest)
    | none => .error { problem := .badUnicode, rest := t }
  | _ => .error { problem := .badUnicode, rest := t }

/-- The code point of an escape after its backslash, in the string that begins at `start`. -/
def readEscape (start t : Text) : Except Stop (CodePoint × Text) :=
  match t with
  | [] => .error { problem := .unterminated, rest := start }
  | c :: rest =>
    if c = 0x75 then readUnicode t
    else match simpleEscape? c with
      | some d => .ok (d, rest)
      | none => .error { problem := .badEscape, rest := 0x5C :: t }

/-- The rest of the string that begins at `start`, up to its closing quote. -/
def readChars (start : Text) : Nat → Text → Except Stop (Text × Text)
  | 0, _ | _ + 1, [] => .error { problem := .unterminated, rest := start }
  | fuel + 1, c :: rest =>
    if c = 0x22 then .ok ([], rest)
    else if c = 0x5C then do
      let (d, rest) ← readEscape start rest
      let (t, rest) ← readChars start fuel rest
      return (d :: t, rest)
    else if c ≤ 0x1F then .error { problem := .control, rest := c :: rest }
    else do
      let (t, rest) ← readChars start fuel rest
      return (c :: t, rest)

/-! ## Values -/

/-- The text after a code point that has to come first. -/
def expect (c : CodePoint) (problem : Problem) (t : Text) : Except Stop Text :=
  match t with
  | d :: rest => if c = d then .ok rest else .error { problem, rest := t }
  | [] => .error { problem, rest := t }

mutual

/-- The value at the start of a text. -/
def readValue : Nat → Text → Except Stop (Json × Text)
  | 0, t => .error { problem := .value, rest := t }
  | _ + 1, [] => .error { problem := .value, rest := [] }
  | fuel + 1, c :: rest =>
    if c = 0x22 then do
      let (t, rest) ← readChars (c :: rest) fuel rest
      return (.text t, rest)
    else if c = 0x7B then
      match skipSpace rest with
      | 0x7D :: rest => .ok (.object [], rest)
      | t => do
        let (pairs, rest) ← readFields fuel t
        return (.object (fieldsOf pairs), rest)
    else if c = 0x5B then
      match skipSpace rest with
      | 0x5D :: rest => .ok (.array [], rest)
      | t => do
        let (items, rest) ← readItems fuel t
        return (.array items, rest)
    else match readWord? (c :: rest) with
      | some found => .ok found
      | none =>
        match readNumber? (c :: rest) with
        | some (n, rest) => .ok (.number n, rest)
        | none => .error { problem := .value, rest := c :: rest }

/-- The items from the first one on, up to the closing bracket. -/
def readItems : Nat → Text → Except Stop (List Json × Text)
  | 0, t => .error { problem := .value, rest := t }
  | fuel + 1, t => do
    let (v, rest) ← readValue fuel t
    match skipSpace rest with
    | 0x5D :: rest => return ([v], rest)
    | t =>
      let rest ← expect 0x2C .comma t
      let (vs, rest) ← readItems fuel (skipSpace rest)
      return (v :: vs, rest)

/-- The fields from the first one on, up to the closing brace. -/
def readFields : Nat → Text → Except Stop (List (Text × Json) × Text)
  | 0, t => .error { problem := .fieldName, rest := t }
  | fuel + 1, t => do
    let rest ← expect 0x22 .fieldName t
    let (key, rest) ← readChars t fuel rest
    let rest ← expect 0x3A .colon (skipSpace rest)
    let (v, rest) ← readValue fuel (skipSpace rest)
    match skipSpace rest with
    | 0x7D :: rest => return ([(key, v)], rest)
    | t =>
      let rest ← expect 0x2C .comma t
      let (pairs, rest) ← readFields fuel (skipSpace rest)
      return ((key, v) :: pairs, rest)

end

/-- The value that a whole text spells, or where reading stops. -/
def readDocument (t : Text) : Except Stop Json :=
  match t with
  | 0xFEFF :: _ => .error { problem := .byteOrderMark, rest := t }
  | _ => do
    let (v, rest) ← readValue (2 * t.length + 2) (skipSpace t)
    match skipSpace rest with
    | [] => return v
    | rest => throw { problem := .extra, rest }

/-- The value that a text spells. -/
def read (t : Text) : Except ReadFault Json :=
  match readDocument t with
  | .ok v => .ok v
  | .error stop =>
    let position := t.length - stop.rest.length
    let (line, column) := t.lineColumn position
    .error { problem := stop.problem, line, column, position }

end XofConformance.Json
