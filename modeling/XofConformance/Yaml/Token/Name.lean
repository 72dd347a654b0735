import XofConformance.Text.Utf8
import XofConformance.Yaml.Cursor
import XofConformance.Yaml.Token

/-!
# Names and directives

Anchors, tags and directives, and the cursor after each.
-/

namespace XofConformance.Yaml.Name

/-! ## Anchors -/

/-- The name of an anchor or an alias; the cursor is at its mark. -/
def anchor (c : Cursor) : Except ReadFault (Text × Cursor) :=
  let (name, c) := c.next.span isNameChar
  if name.isEmpty || !(endsMark (c.peek 0) || (c.peek 0).any (isOneOf "?:,]\x7d%@\x60")) then
    .error .malformed
  else .ok (name, c)

/-! ## Tags -/

/-- `c` may be part of a tag. -/
def isTagChar (c : CodePoint) : Bool :=
  Text.isDigit c || (0x41 ≤ c && c ≤ 0x5A) || (0x61 ≤ c && c ≤ 0x7A)
    || isOneOf "-;/?:@&=+$,_.!~*'()[]%" c

/-- The bytes of a run of percent escapes and the text after it. -/
def escapedBytes : Text → Option (Bytes × Text)
  | 0x25 :: a :: b :: rest => do
    let high ← Text.hexValue? a
    let low ← Text.hexValue? b
    let (bytes, rest) ← escapedBytes rest
    return (UInt8.ofNat (16 * high + low) :: bytes, rest)
  | 0x25 :: _ => none
  | t => some ([], t)

/-- A run of tag characters with its escapes resolved. -/
def unescape : Nat → Text → Except ReadFault Text
  | 0, _ => .error .malformed
  | _, [] => .ok []
  | fuel + 1, c :: rest =>
    if c = 0x25 then
      match escapedBytes (c :: rest) with
      | none => .error .malformed
      | some (bytes, rest) =>
        match Text.ofUtf8 bytes with
        | .ok t => do return t ++ (← unescape fuel rest)
        | .error _ => .error .malformed
    else do return c :: (← unescape fuel rest)

/-- The characters of a tag or of the expansion of a handle; at least one. -/
def tagText (c : Cursor) : Except ReadFault (Text × Cursor) := do
  let (run, c) := c.span isTagChar
  if run.isEmpty then throw .malformed
  return (← unescape (run.length + 1) run, c)

/-- A handle: a name between two exclamation marks, or one mark alone. -/
def handle (c : Cursor) : Except ReadFault (Text × Cursor) :=
  let (name, d) := c.next.span isNameChar
  if !c.isAt 0x21 then .error .malformed
  else if d.isAt 0x21 then .ok (Text.concat ["!", name, "!"], d.next)
  else if name.isEmpty && d.isAt 0x20 then .ok ("!", d)
  else .error .malformed

/-- What follows the mark of a tag: a text between angles, nothing, or a suffix that may have a
handle with a second mark. -/
def tagBody (c : Cursor) : Except ReadFault (TagName × Cursor) :=
  if c.peek 1 = some 0x3C then do
    let (suffix, c) ← tagText (c.drop 2)
    if c.isAt 0x3E then return ({ handle := none, suffix }, c.next) else throw .malformed
  else if endsMark (c.peek 1) then .ok ({ handle := none, suffix := "!" }, c.next)
  else do
    let (handle, c) ←
      if (c.next.rest.takeWhile fun d => !endsWord (some d)).contains 0x21 then handle c
      else .ok (Text.ofString "!", c.next)
    let (suffix, c) ← tagText c
    return ({ handle := some handle, suffix }, c)

/-- A tag; the cursor is at its mark. -/
def tag (c : Cursor) : Except ReadFault (TagName × Cursor) := do
  let (name, c) ← tagBody c
  if endsWord (c.peek 0) then return (name, c) else throw .malformed

/-! ## Directives -/

/-- A number of a version. -/
def versionNumber (c : Cursor) : Except ReadFault (Nat × Cursor) :=
  let (digits, c) := c.span Text.isDigit
  if digits.isEmpty then .error .malformed else .ok (Text.decimalValue digits, c)

/-- What follows the name of a directive. -/
def directiveBody (name : Text) (c : Cursor) : Except ReadFault (Directive × Cursor) :=
  if name = Text.ofString "YAML" then do
    let (major, c) ← versionNumber c.skipSpaces
    if !c.isAt 0x2E then throw .malformed
    let (_, c) ← versionNumber c.next
    if endsWord (c.peek 0) then return (.version major, c) else throw .malformed
  else if name = Text.ofString "TAG" then do
    let (handle, c) ← handle c.skipSpaces
    if !c.isAt 0x20 then throw .malformed
    let (expansion, c) ← tagText c.skipSpaces
    if endsWord (c.peek 0) then return (.handle handle expansion, c) else throw .malformed
  else .ok (.other, c.skip (!isBreak ·))

/-- A directive; the cursor is at its mark. -/
def directive (c : Cursor) : Except ReadFault (Directive × Cursor) := do
  let (name, c) := c.next.span isNameChar
  if name.isEmpty || !endsWord (c.peek 0) then throw .malformed
  let (d, c) ← directiveBody name c
  return (d, ← c.finishLine)

end XofConformance.Yaml.Name
