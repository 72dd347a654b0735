import XofConformance.Yaml.Cursor

/-!
# Styles of scalars

The content of a scalar in each of its styles, and the cursor after it. Inside quoted and plain
scalars a line end folds into a space; a block scalar keeps its line ends, or folds those between
two lines that begin with something else than a blank. Every step moves the cursor on, so the
length of the document bounds the steps.
-/

namespace XofConformance.Yaml.Style

/-! ## Quoted scalars -/

/-- The line ends that come next, with the blanks around them left out. -/
def quotedBreaks : Nat → Cursor → Except ReadFault (Text × Cursor)
  | 0, _ => .error .malformed
  | fuel + 1, c =>
    if c.isAtSeparator then .error .malformed
    else
      let c := c.skip isBlank
      match c.lineBreak? with
      | none => .ok ([], c)
      | some (b, c) => do
        let (breaks, c) ← quotedBreaks fuel c
        return (b :: breaks, c)

/-- Blanks inside quotes, folded if a line ends among them. -/
def quotedBlanks (fuel : Nat) (c : Cursor) : Except ReadFault (Text × Cursor) :=
  let (blanks, c) := c.span isBlank
  match c.lineBreak? with
  | none => .ok (blanks, c)
  | some (b, c) => do
    let (breaks, c) ← quotedBreaks fuel c
    return (Cursor.fold b breaks, c)

/-- The code point that an escape of one letter stands for. -/
def simpleEscape? (c : CodePoint) : Option CodePoint :=
  [(0x30, 0x00), (0x61, 0x07), (0x62, 0x08), (0x74, 0x09), (0x09, 0x09), (0x6E, 0x0A),
    (0x76, 0x0B), (0x66, 0x0C), (0x72, 0x0D), (0x65, 0x1B), (0x20, 0x20), (0x22, 0x22),
    (0x5C, 0x5C), (0x2F, 0x2F), (0x4E, 0x85), (0x5F, 0xA0), (0x4C, 0x2028),
    (0x50, 0x2029)].lookup c

/-- How many digits follow the letter of an escape that names a code point. -/
def escapeWidth? (c : CodePoint) : Option Nat :=
  [(0x78, 2), (0x75, 4), (0x55, 8)].lookup c

/-- The code point that `width` hexadecimal digits name. -/
def namedCodePoint (width : Nat) (t : Text) : Except ReadFault CodePoint :=
  let digits := t.take width
  if digits.length < width ∨ digits.any fun c => (Text.hexValue? c).isNone then .error .malformed
  else
    let n := Text.digitsValue 16 (fun c => (Text.hexValue? c).getD 0) digits
    if n < 0x110000 then .ok n
    else .error (.scalar (if n < 0x80000000 then .malformed else .tooLarge))

/-- What an escape stands for; the cursor is after the backslash. -/
def escape (fuel : Nat) (c : Cursor) : Except ReadFault (Text × Cursor) :=
  match c.rest with
  | [] => .error .malformed
  | d :: rest =>
    match simpleEscape? d, escapeWidth? d with
    | some e, _ => .ok ([e], c.next)
    | none, some width => do return ([← namedCodePoint width rest], c.drop (width + 1))
    | none, none =>
      match c.lineBreak? with
      | some (_, c) => quotedBreaks fuel c
      | none => .error .malformed

/-- The content up to the closing quote and the cursor after that. -/
def quotedFrom (double : Bool) : Nat → Cursor → Except ReadFault (Text × Cursor)
  | 0, _ => .error .malformed
  | fuel + 1, c =>
    match c.rest with
    | [] => .error .malformed
    | d :: rest => do
      let isQuote := d == (if double then 0x22 else 0x27)
      if isQuote && (double || rest.head? != some 0x27) then return ([], c.next)
      let (part, c) ←
        if isBlank d || isBreak d then quotedBlanks (fuel + 1) c
        else if double && d == 0x5C then escape (fuel + 1) c.next
        else .ok ([d], c.drop (if isQuote then 2 else 1))
      let (content, c) ← quotedFrom double fuel c
      return (part ++ content, c)

/-- A quoted scalar; the cursor is at its quote. -/
def quoted (c : Cursor) : Except ReadFault (Text × Cursor) :=
  quotedFrom (c.isAt 0x22) (c.rest.length + 1) c.next

/-! ## Plain scalars -/

/-- A colon that is followed by `next` ends a plain scalar. -/
def endsKey (flow : Bool) (next : Option CodePoint) : Bool :=
  endsMark next || (flow && next.any (isOneOf ",[]\x7b\x7d"))

/-- The longest run that belongs to a plain scalar. -/
def plainRun (flow : Bool) : Text → Text
  | [] => []
  | c :: rest =>
    if endsMark (some c) || (c == 0x3A && endsKey flow rest.head?)
      || (flow && isOneOf ",?[]\x7b\x7d" c) then []
    else c :: plainRun flow rest

/-- The line ends after the first one; nothing if a mark between documents follows. -/
def plainBreaks : Nat → Cursor → Option Text × Cursor
  | 0, c => (none, c)
  | fuel + 1, c =>
    if c.isAtSeparator then (none, c)
    else
      let c := c.skipSpaces
      match c.lineBreak? with
      | none => (some [], c)
      | some (b, c) =>
        let (breaks, c) := plainBreaks fuel c
        (breaks.map (b :: ·), c)

/-- What stands between two runs of a plain scalar, the cursor after it, and whether a line ends
there; nothing if the scalar cannot go on. -/
def plainGap (c : Cursor) : Option Text × Cursor × Bool :=
  let (spaces, c) := c.span (· == 0x20)
  match c.lineBreak? with
  | none => (if spaces.isEmpty then none else some spaces, c, false)
  | some (b, c) =>
    let (breaks, c) := plainBreaks (c.rest.length + 1) c
    (breaks.map (Cursor.fold b), c, true)

/-- The content from a run on, the cursor after it and the gap behind it, and whether a line ends
in that gap. A plain scalar in a block goes on only on lines that are indented by `indent`. -/
def plainFrom (flow : Bool) (indent : Int) : Nat → Cursor → Text × Cursor × Bool
  | 0, c => ([], c, false)
  | fuel + 1, c =>
    let run := plainRun flow c.rest
    let (gap, c, broken) := plainGap (c.drop run.length)
    match gap with
    | none => (run, c, broken)
    | some gap =>
      if c.isAt 0x23 || (!flow && c.column < indent) || (plainRun flow c.rest).isEmpty then
        (run, c, broken)
      else
        let (content, c, broken) := plainFrom flow indent fuel c
        (run ++ gap ++ content, c, broken)

/-- A plain scalar. -/
def plain (flow : Bool) (indent : Int) (c : Cursor) : Text × Cursor × Bool :=
  plainFrom flow indent (c.rest.length + 1) c

/-! ## Block scalars -/

/-- What becomes of the line ends after the last line: one is kept if there is one, all are
kept, or none. -/
inductive Chomping
  | clip
  | keep
  | strip
  deriving DecidableEq

/-- A sign that says how to chomp. -/
def chomping? (c : Option CodePoint) : Option Chomping :=
  if c = some 0x2B then some .keep else if c = some 0x2D then some .strip else none

/-- A digit that says how far to indent. -/
def increment? (c : Option CodePoint) : Option Nat :=
  c.bind fun d => if Text.isDigit d then some (Text.digitValue d) else none

/-- The sign and the digit in the first line of a block scalar, in either order; the digit is not
zero and nothing else follows. -/
def blockHeader (c : Cursor) : Except ReadFault (Chomping × Option Nat × Cursor) :=
  let (chomping, increment, size) :=
    match chomping? (c.peek 0), increment? (c.peek 0) with
    | some s, _ =>
      match increment? (c.peek 1) with
      | some n => (s, some n, 2)
      | none => (s, none, 1)
    | none, some n =>
      match chomping? (c.peek 1) with
      | some s => (s, some n, 2)
      | none => (.clip, some n, 1)
    | none, none => (.clip, none, 0)
  let c := c.drop size
  if increment = some 0 || !endsWord (c.peek 0) then .error .malformed
  else do return (chomping, increment, ← c.finishLine)

/-- The line ends before the first line, and the deepest indentation among them. -/
def leadingBreaks : Nat → Nat → Cursor → Text × Nat × Cursor
  | 0, deepest, c => ([], deepest, c)
  | fuel + 1, deepest, c =>
    let c := c.skipSpaces
    let deepest := max deepest c.column
    match c.lineBreak? with
    | none => ([], deepest, c)
    | some (b, c) =>
      let (breaks, deepest, c) := leadingBreaks fuel deepest c
      (b :: breaks, deepest, c)

/-- The cursor after at most the indentation. -/
def skipIndent : Nat → Cursor → Cursor
  | 0, c => c
  | n + 1, c => if c.isAt 0x20 then skipIndent n c.next else c

/-- The empty lines that come next; the cursor after them and the indentation behind them. -/
def blockBreaks (indent : Nat) : Nat → Cursor → Text × Cursor
  | 0, c => ([], c)
  | fuel + 1, c =>
    let c := skipIndent (indent - c.column) c
    match c.lineBreak? with
    | none => ([], c)
    | some (b, c) =>
      let (breaks, c) := blockBreaks indent fuel c
      (b :: breaks, c)

/-- A line of a block scalar begins here. -/
def atLine (indent : Nat) (c : Cursor) : Bool := c.column == indent && !c.rest.isEmpty

/-- The line does not begin with a blank. -/
def isFlush (c : Cursor) : Bool := !c.rest.head?.any isBlank

/-- What stands between two lines. -/
def between (folded : Bool) (b : CodePoint) (breaks : Text) (before after : Cursor) : Text :=
  if folded && b == 0x0A && isFlush before && isFlush after then
    if breaks.isEmpty then [0x20] else breaks
  else b :: breaks

/-- What is kept of the line ends after the last line. -/
def trailing (chomping : Chomping) (last : Option CodePoint) (breaks : Text) : Text :=
  match chomping with
  | .strip => []
  | .clip => last.toList
  | .keep => last.toList ++ breaks

/-- The lines of a block scalar from one on, and what follows them. -/
def blockLines (folded : Bool) (chomping : Chomping) (indent : Nat) : Nat → Cursor → Text × Cursor
  | 0, c => ([], c)
  | fuel + 1, c =>
    let (line, d) := c.span (!isBreak ·)
    match d.lineBreak? with
    | none => (line, d)
    | some (b, d) =>
      let (breaks, d) := blockBreaks indent (fuel + 1) d
      if atLine indent d then
        let (lines, e) := blockLines folded chomping indent fuel d
        (line ++ between folded b breaks c d ++ lines, e)
      else (line ++ trailing chomping (some b) breaks, d)

/-- A block scalar in a collection that is indented by `indent`; the cursor is at its mark. -/
def block (indent : Int) (c : Cursor) : Except ReadFault (Text × Cursor) := do
  let (chomping, increment, d) ← blockHeader c.next
  let least := max 1 (indent + 1).toNat
  let fuel := c.rest.length + 1
  let (breaks, indent, d) :=
    match increment with
    | some n =>
      let (breaks, d) := blockBreaks (least + n - 1) fuel d
      (breaks, least + n - 1, d)
    | none =>
      let (breaks, deepest, d) := leadingBreaks fuel 0 d
      (breaks, max least deepest, d)
  if atLine indent d then
    let (lines, d) := blockLines (c.isAt 0x3E) chomping indent fuel d
    return (breaks ++ lines, d)
  else return (trailing chomping none breaks, d)

end XofConformance.Yaml.Style
