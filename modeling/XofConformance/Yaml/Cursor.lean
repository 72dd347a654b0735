import XofConformance.Text.Basic
import XofConformance.Yaml.Fault

/-!
# A place in a document

What is left of a document, and the line and column where it begins. Lines end with a line feed
or one of three other line ends; a byte order mark takes no column.
-/

namespace XofConformance.Yaml

/-! ## Classes of code points -/

/-- `c` ends a line. -/
def isBreak (c : CodePoint) : Bool := c == 0x0A || c == 0x85 || c == 0x2028 || c == 0x2029

/-- `c` is a space or a tab. -/
def isBlank (c : CodePoint) : Bool := c == 0x20 || c == 0x09

/-- `c` is one of the code points of a string. -/
def isOneOf (marks : String) (c : CodePoint) : Bool := (Text.ofString marks).contains c

/-- A space comes here, or a line or the document ends. -/
def endsWord : Option CodePoint → Bool
  | none => true
  | some c => c == 0x20 || isBreak c

/-- A space or a tab comes here, or a line or the document ends. -/
def endsMark : Option CodePoint → Bool
  | none => true
  | some c => isBlank c || isBreak c

/-- `c` may be part of a name. -/
def isNameChar (c : CodePoint) : Bool :=
  Text.isDigit c || (0x41 ≤ c && c ≤ 0x5A) || (0x61 ≤ c && c ≤ 0x7A) || c == 0x2D || c == 0x5F

/-! ## Cursors -/

/-- What is left of a document and where that begins. -/
structure Cursor where
  rest : Text
  index : Nat := 0
  line : Nat := 0
  column : Nat := 0

namespace Cursor

/-- The code point at a distance. -/
def peek (c : Cursor) (distance : Nat) : Option CodePoint := c.rest[distance]?

/-- The code point that comes next is `d`. -/
def isAt (c : Cursor) (d : CodePoint) : Bool := c.rest.head? == some d

/-- The cursor after one code point. -/
def next (c : Cursor) : Cursor :=
  match c.rest with
  | [] => c
  | d :: rest =>
    if isBreak d then { rest, index := c.index + 1, line := c.line + 1, column := 0 }
    else { rest, index := c.index + 1, line := c.line,
           column := if d = 0xFEFF then c.column else c.column + 1 }

/-- The cursor after `n` code points. -/
def drop : Nat → Cursor → Cursor
  | 0, c => c
  | n + 1, c => drop n c.next

/-- The longest run of `p`, and the cursor after it. -/
def span (p : CodePoint → Bool) (c : Cursor) : Text × Cursor :=
  let run := c.rest.takeWhile p
  (run, c.drop run.length)

/-- The cursor after the longest run of `p`. -/
def skip (p : CodePoint → Bool) (c : Cursor) : Cursor := (c.span p).2

/-- The cursor after the spaces that come next. -/
def skipSpaces (c : Cursor) : Cursor := c.skip (· == 0x20)

/-- The line end that comes next, in its plain form, and the cursor after it. -/
def lineBreak? (c : Cursor) : Option (CodePoint × Cursor) :=
  match c.rest with
  | d :: _ => if isBreak d then some (if d = 0x85 then 0x0A else d, c.next) else none
  | [] => none

/-- A comment comes next: the cursor after it, or else the same one. -/
def skipComment (c : Cursor) : Cursor := if c.isAt 0x23 then c.skip (!isBreak ·) else c

/-- A mark between documents comes next. -/
def isAtSeparator (c : Cursor) : Bool :=
  (c.rest.take 3 == Text.ofString "---" || c.rest.take 3 == Text.ofString "...")
    && endsMark (c.peek 3)

/-- The cursor after the spaces, the comment and the line end that may come at the end of a line;
nothing else may. -/
def finishLine (c : Cursor) : Except ReadFault Cursor :=
  let c := c.skipSpaces.skipComment
  match c.lineBreak? with
  | some (_, c) => .ok c
  | none => if c.rest.isEmpty then .ok c else .error .malformed

/-- What a line end and the line ends after it stand for between two words: one line feed alone is
a space, and one before others is left out. -/
def fold (first : CodePoint) (others : Text) : Text :=
  if first ≠ 0x0A then first :: others else if others.isEmpty then [0x20] else others

end Cursor

end XofConformance.Yaml
