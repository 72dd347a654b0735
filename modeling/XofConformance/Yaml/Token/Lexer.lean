import XofConformance.Yaml.Token.Name
import XofConformance.Yaml.Token.Style

/-!
# From a document to its tokens

Blocks are told by indentation: a deeper column opens one, a shallower one closes it. A key
without a mark of its own is known only by the colon behind it. So the place before anything that
may be such a key is remembered, on its line and for a limited length, and the tokens of the key
are put there when the colon comes.
-/

namespace XofConformance.Yaml

/-- A place where a key without a mark may have begun. -/
structure SimpleKey where
  /-- The number of tokens before it. -/
  tokens : Nat
  /-- Nothing else can stand here, so the colon has to come. -/
  required : Bool
  index : Nat
  line : Nat
  column : Nat

/-- A reading of a document up to a place. -/
structure Lexer where
  cursor : Cursor
  /-- The tokens so far, latest first. -/
  tokens : List Token := []
  /-- The columns of the open blocks, innermost first. -/
  indents : List Nat := []
  /-- The keys that may have begun: in the innermost flow collection, in those around it, and in
  the block around them all. -/
  keys : List (Option SimpleKey) := [none]
  /-- A key may begin here. -/
  keyAllowed : Bool := true

namespace Lexer

/-- A key without a mark is on one line and at most this long. -/
def maxKeyLength : Nat := 1024

/-- The place is inside a flow collection. -/
def inFlow (s : Lexer) : Bool := 1 < s.keys.length

/-- The column of the innermost block, -1 outside of all. -/
def indent (s : Lexer) : Int :=
  match s.indents with
  | [] => -1
  | n :: _ => n

/-- The reading with a token that takes `n` code points. -/
def mark (t : Token) (n : Nat) (s : Lexer) : Lexer :=
  { s with tokens := t :: s.tokens, cursor := s.cursor.drop n }

/-- The reading with whether a key may begin set. -/
def allowKey (allowed : Bool) (s : Lexer) : Lexer := { s with keyAllowed := allowed }

/-! ## Blanks and comments -/

/-- The reading after blanks and comments; after a line end in a block a key may begin. -/
def skipBlanks : Nat → Lexer → Lexer
  | 0, s => s
  | fuel + 1, s =>
    let c := s.cursor.skipSpaces.skipComment
    match c.lineBreak? with
    | none => { s with cursor := c }
    | some (_, c) => skipBlanks fuel { s with cursor := c, keyAllowed := s.keyAllowed || !s.inFlow }

/-- A byte order mark may begin a document. -/
def skipByteOrderMark (s : Lexer) : Lexer :=
  if s.cursor.index = 0 && s.cursor.isAt 0xFEFF then { s with cursor := s.cursor.next } else s

/-! ## Blocks -/

/-- Closes the blocks that are deeper than a column. -/
def closeBlocks (column : Int) : List Nat → List Token → List Nat × List Token
  | [], tokens => ([], tokens)
  | n :: rest, tokens =>
    if column < n then closeBlocks column rest (.blockEnd :: tokens) else (n :: rest, tokens)

/-- The reading with the blocks closed that are deeper than a column. -/
def unwind (column : Int) (s : Lexer) : Lexer :=
  if s.inFlow then s
  else
    let (indents, tokens) := closeBlocks column s.indents s.tokens
    { s with indents, tokens }

/-- Opens a block at a column that is deeper than the innermost block; its first token goes behind
the first `n` tokens. -/
def openBlock (first : Token) (column n : Nat) (s : Lexer) : Lexer :=
  if s.inFlow || column ≤ s.indent then s
  else
    let later := s.tokens.take (s.tokens.length - n)
    { s with
      indents := column :: s.indents
      tokens := later ++ first :: s.tokens.drop later.length }

/-! ## Keys without a mark -/

/-- Keys that did not end on their line or are too long are none. -/
def dropStaleKeys (s : Lexer) : Except ReadFault Lexer :=
  let isStale (k : SimpleKey) : Bool :=
    k.line != s.cursor.line || maxKeyLength < s.cursor.index - k.index
  if s.keys.any fun k => k.any fun k => k.required && isStale k then .error .malformed
  else .ok { s with keys := s.keys.map fun k => k.filter fun k => !isStale k }

/-- Forgets the key that may have begun on this level; if it is required, the colon is missing. -/
def dropKey (s : Lexer) : Except ReadFault Lexer :=
  if (s.keys.head?.join).any (·.required) then .error .malformed
  else .ok { s with keys := none :: s.keys.tail }

/-- Remembers that a key may begin here. -/
def saveKey (s : Lexer) : Except ReadFault Lexer := do
  if !s.keyAllowed then return s
  let s ← s.dropKey
  let key : SimpleKey :=
    { tokens := s.tokens.length, required := !s.inFlow && s.indent == s.cursor.column,
      index := s.cursor.index, line := s.cursor.line, column := s.cursor.column }
  return { s with keys := some key :: s.keys.tail }

/-! ## Marks -/

/-- A mark that begins a flow collection. -/
def openFlow (t : Token) (s : Lexer) : Except ReadFault Lexer := do
  let s ← s.saveKey
  return ({ s with keys := none :: s.keys }.allowKey true).mark t 1

/-- A mark that ends a flow collection. -/
def closeFlow (t : Token) (s : Lexer) : Except ReadFault Lexer := do
  let s ← s.dropKey
  let keys := if s.inFlow then s.keys.tail else s.keys
  return ({ s with keys }.allowKey false).mark t 1

/-- A mark between the entries of a flow collection. -/
def flowEntry (s : Lexer) : Except ReadFault Lexer := do
  return ((← s.dropKey).allowKey true).mark .flowEntry 1

/-- A mark in a block may stand only where a key may begin. -/
def checkBlock (s : Lexer) : Except ReadFault Unit :=
  if s.inFlow || s.keyAllowed then .ok () else .error .malformed

/-- A mark before an entry of a block sequence. -/
def blockEntry (s : Lexer) : Except ReadFault Lexer := do
  s.checkBlock
  let s := s.openBlock .blockSequenceStart s.cursor.column s.tokens.length
  return ((← s.dropKey).allowKey true).mark .blockEntry 1

/-- A mark before a key. -/
def key (s : Lexer) : Except ReadFault Lexer := do
  s.checkBlock
  let s := s.openBlock .blockMappingStart s.cursor.column s.tokens.length
  return ((← s.dropKey).allowKey (!s.inFlow)).mark .key 1

/-- A colon behind a key: one that may have begun, or one with a mark, or no key at all. -/
def value (s : Lexer) : Except ReadFault Lexer :=
  match s.keys.head?.join with
  | some k =>
    let later := s.tokens.take (s.tokens.length - k.tokens)
    let s := { s with
      keys := none :: s.keys.tail
      tokens := later ++ Token.key :: s.tokens.drop later.length }
    .ok (((s.openBlock .blockMappingStart k.column k.tokens).allowKey false).mark .value 1)
  | none => do
    s.checkBlock
    let s := s.openBlock .blockMappingStart s.cursor.column s.tokens.length
    return ((← s.dropKey).allowKey (!s.inFlow)).mark .value 1

/-- A mark or a directive that belongs to no document's content. -/
def outside (t : Token) (cursor : Cursor) (s : Lexer) : Except ReadFault Lexer := do
  let s ← (s.unwind (-1)).dropKey
  return { s with cursor, tokens := t :: s.tokens, keyAllowed := false }

/-- Something that may be a key or the beginning of one: its token, and the cursor after it. -/
def keyLike (read : Cursor → Except ReadFault (Token × Cursor)) (s : Lexer) :
    Except ReadFault Lexer := do
  let s ← s.saveKey
  let (t, cursor) ← read s.cursor
  return { s with cursor, tokens := t :: s.tokens, keyAllowed := false }

/-- A scalar that keeps its lines. -/
def blockScalar (s : Lexer) : Except ReadFault Lexer := do
  let s ← s.dropKey
  let (t, cursor) ← Style.block s.indent s.cursor
  return { s with cursor, tokens := .scalar false t :: s.tokens, keyAllowed := true }

/-- A plain scalar; after a line end behind it a key may begin. -/
def plainScalar (s : Lexer) : Except ReadFault Lexer := do
  let s ← s.saveKey
  let (t, cursor, broken) := Style.plain s.inFlow (s.indent + 1) s.cursor
  return { s with cursor, tokens := .scalar true t :: s.tokens, keyAllowed := broken }

/-- A plain scalar may begin here. -/
def startsPlain (s : Lexer) (c : CodePoint) : Bool :=
  !(endsMark (some c) || isOneOf "-?:,[]\x7b\x7d#&*!|>'\"%@\x60" c)
    || (!endsMark (s.cursor.peek 1) && (c == 0x2D || (!s.inFlow && (c == 0x3F || c == 0x3A))))

/-- The reading after the token that begins with `c`. -/
def readToken (c : CodePoint) (s : Lexer) : Except ReadFault Lexer :=
  let alone := endsMark (s.cursor.peek 1)
  let mark (d : CodePoint) : Bool := c == d
  if mark 0x25 && s.cursor.column == 0 then do
    let (d, cursor) ← Name.directive s.cursor
    s.outside (.directive d) cursor
  else if s.cursor.column == 0 && s.cursor.isAtSeparator then
    s.outside (if mark 0x2D then .documentStart else .documentEnd) (s.cursor.drop 3)
  else if mark 0x5B then s.openFlow .flowSequenceStart
  else if mark 0x7B then s.openFlow .flowMappingStart
  else if mark 0x5D then s.closeFlow .flowSequenceEnd
  else if mark 0x7D then s.closeFlow .flowMappingEnd
  else if mark 0x2C then s.flowEntry
  else if mark 0x2D && alone then s.blockEntry
  else if mark 0x3F && (s.inFlow || alone) then s.key
  else if mark 0x3A && (s.inFlow || alone) then s.value
  else if mark 0x2A then s.keyLike fun c => do
    let (name, c) ← Name.anchor c
    return (.alias name, c)
  else if mark 0x26 then s.keyLike fun c => do
    let (name, c) ← Name.anchor c
    return (.anchor name, c)
  else if mark 0x21 then s.keyLike fun c => do
    let (name, c) ← Name.tag c
    return (.tag name, c)
  else if (mark 0x7C || mark 0x3E) && !s.inFlow then s.blockScalar
  else if mark 0x27 || mark 0x22 then s.keyLike fun c => do
    let (t, c) ← Style.quoted c
    return (.scalar false t, c)
  else if s.startsPlain c then s.plainScalar
  else .error .malformed

/-- The reading with its next tokens, the blanks before them skipped. -/
def step (s : Lexer) : Except ReadFault Lexer := do
  let s := s.skipByteOrderMark.skipBlanks (s.cursor.rest.length + 1)
  let s ← s.dropStaleKeys
  let s := s.unwind s.cursor.column
  match s.cursor.rest with
  | [] => s.outside .streamEnd s.cursor
  | c :: _ => s.readToken c

/-- The tokens that are certain: no key may still be put before one of them. -/
def certain (s : Lexer) : List Token :=
  let tokens := s.tokens.reverse
  (s.keys.filterMap id).foldl (fun tokens k => tokens.take k.tokens) tokens

/-- Reads on to the end of the document, or up to a fault. -/
def finish : Nat → Lexer → List Token × ReadFault
  | 0, s => (s.certain, .malformed)
  | fuel + 1, s =>
    match s.step with
    | .error f => (s.certain, f)
    | .ok t => if t.tokens.head? == some .streamEnd then (t.tokens.reverse, .malformed)
      else finish fuel t

end Lexer

/-- The tokens of a document, up to its end or up to a place where the fault comes up. -/
def Token.ofText (t : Text) : List Token × ReadFault :=
  Lexer.finish (t.length + 1) { cursor := { rest := t } }

end XofConformance.Yaml
