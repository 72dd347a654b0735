import XofConformance.Yaml.Node
import XofConformance.Yaml.Token.Lexer

/-!
# From tokens to nodes

A document is one node between its marks. A node may have an anchor and a tag before its content;
an alias stands for the node of its anchor. Every call takes a token or makes way for one that
does, so the number of tokens bounds the calls.
-/

namespace XofConformance.Yaml.Node

/-- The tokens still to be read, the nodes of the anchors so far (none for a collection that is
not finished), and the expansions of the handles. -/
structure Source where
  tokens : List Token
  /-- What happened behind the last token. -/
  fault : ReadFault
  anchors : List (Text × Option Node) := []
  handles : List (Text × Text) := []

/-- A reading of tokens that may fail. -/
abbrev Read := StateT Source (Except ReadFault)

/-! ## Tokens -/

/-- The next token. -/
def peek : Read Token := do
  let s ← get
  match s.tokens with
  | [] => throw s.fault
  | t :: _ => return t

/-- Goes past a token. -/
def skip : Read Unit := modify fun s => { s with tokens := s.tokens.tail }

/-- Goes past a token, which has to be `t`. -/
def expect (t : Token) : Read Unit := do
  if (← peek) = t then skip else throw .malformed

/-! ## Properties -/

/-- An anchor, if one comes next. -/
def anchor? : Read (Option Text) := do
  match ← peek with
  | .anchor name => skip; return some name
  | _ => return none

/-- A tag, if one comes next. -/
def tag? : Read (Option TagName) := do
  match ← peek with
  | .tag name => skip; return some name
  | _ => return none

/-- An anchor and a tag in either order. -/
def properties : Read (Option Text × Option TagName) := do
  match ← anchor? with
  | some name => return (some name, ← tag?)
  | none =>
    match ← tag? with
    | some tag => return (← anchor?, some tag)
    | none => return (none, none)

/-- The full text of a tag. -/
def expand (tag : TagName) : Read Text := do
  match tag.handle with
  | none => return tag.suffix
  | some handle =>
    match (← get).handles.lookup handle with
    | some expansion => return expansion ++ tag.suffix
    | none => throw .malformed

/-- What a node has before its content. -/
structure Properties where
  anchor : Option Text
  tag : Option Text

namespace Properties

/-- The kind is to be found without a tag. -/
def isUntagged (p : Properties) : Bool := p.tag.all (· == Text.ofString "!")

/-- The kind that the tag names, or else `kind`. -/
def kindOr (p : Properties) (kind : Kind) : Option Kind :=
  if p.isUntagged then some kind else p.tag.bind Kind.ofTag?

/-- A scalar. The tag `!` alone makes a quoted scalar count as a plain one. -/
def scalar (p : Properties) (plain : Bool) (content : Text) : Node :=
  .scalar (p.kindOr (if plain || p.tag.isSome then Kind.ofSpelling content else .text)) content

/-- Gives a node to the anchor, if there is one. -/
def name (p : Properties) (n : Option Node) : Read Unit :=
  match p.anchor with
  | none => return
  | some a => modify fun s => { s with anchors := (a, n) :: s.anchors }

end Properties

/-- The properties of a node; no two nodes have the same anchor. -/
def readProperties : Read Properties := do
  let (anchor, tag) ← properties
  if let some a := anchor then
    if ((← get).anchors.lookup a).isSome then throw .malformed
  let tag ← match tag with
    | some tag => some <$> expand tag
    | none => pure none
  return { anchor, tag }

/-- The node that an alias stands for. -/
def aliased (name : Text) : Read Node := do
  match (← get).anchors.lookup name with
  | some (some n) => return n
  | some none => return .enclosing
  | none => throw .malformed

/-! ## Nodes -/

/-- Where a node stands: in a flow collection, in a block, or in a block where a sequence need
not be indented. -/
inductive Place
  | flow
  | block
  | level
  deriving DecidableEq

/-- The tokens that follow where no node is written in a block sequence, in one that is not
indented, in a block mapping, for a key or a value in a flow mapping or sequence. -/
def afterItem : List Token := [.blockEntry, .blockEnd]

@[inherit_doc afterItem]
def afterLevelItem : List Token := [.blockEntry, .key, .value, .blockEnd]

@[inherit_doc afterItem]
def afterBlockKey : List Token := [.key, .value, .blockEnd]

@[inherit_doc afterItem]
def afterFlowKey (close : Token) : List Token := [.value, .flowEntry, close]

mutual

/-- A node. -/
def node : Nat → Place → Read Node
  | 0, _ => throw .malformed
  | fuel + 1, place => do
    if let .alias name ← peek then
      skip
      return ← aliased name
    let p ← readProperties
    match ← peek with
    | .scalar plain content => do
      skip
      let n := p.scalar plain content
      p.name (some n)
      return n
    | .flowSequenceStart => do
      skip
      p.name none
      let n := Node.sequence (p.kindOr .sequence) (← flowItems fuel true)
      p.name (some n)
      return n
    | .flowMappingStart => do
      skip
      p.name none
      let n := Node.mapping (p.kindOr .mapping) (← flowEntries fuel true)
      p.name (some n)
      return n
    | t =>
      if t = .blockEntry ∧ place = .level then do
        p.name none
        let n := Node.sequence (p.kindOr .sequence) (← levelItems fuel)
        p.name (some n)
        return n
      else if t = .blockSequenceStart ∧ place ≠ .flow then do
        skip
        p.name none
        let n := Node.sequence (p.kindOr .sequence) (← blockItems fuel)
        p.name (some n)
        return n
      else if t = .blockMappingStart ∧ place ≠ .flow then do
        skip
        p.name none
        let n := Node.mapping (p.kindOr .mapping) (← blockEntries fuel)
        p.name (some n)
        return n
      else if p.anchor.isSome ∨ p.tag.isSome then do
        let n := p.scalar true []
        p.name (some n)
        return n
      else throw .malformed

/-- A node, or nothing before one of the tokens `ends`. -/
def optional : Nat → Place → List Token → Read Node
  | 0, _, _ => throw .malformed
  | fuel + 1, place, ends => do
    if (← peek) ∈ ends then return nothing else node fuel place

/-- The value of a key: a node after a colon, or nothing. -/
def valueOf : Nat → Place → List Token → Read Node
  | 0, _, _ => throw .malformed
  | fuel + 1, place, ends => do
    if (← peek) = .value then
      skip
      optional fuel place ends
    else return nothing

/-- The items of a block sequence up to its end. -/
def blockItems : Nat → Read (List Node)
  | 0 => throw .malformed
  | fuel + 1 => do
    match ← peek with
    | .blockEntry => do
      skip
      let n ← optional fuel .block afterItem
      return n :: (← blockItems fuel)
    | _ => do
      expect .blockEnd
      return []

/-- The items of a block sequence that is not indented. -/
def levelItems : Nat → Read (List Node)
  | 0 => throw .malformed
  | fuel + 1 => do
    match ← peek with
    | .blockEntry => do
      skip
      let n ← optional fuel .block afterLevelItem
      return n :: (← levelItems fuel)
    | _ => return []

/-- The entries of a block mapping up to its end. -/
def blockEntries : Nat → Read (List (Node × Node))
  | 0 => throw .malformed
  | fuel + 1 => do
    match ← peek with
    | .key => do
      skip
      let k ← optional fuel .level afterBlockKey
      let v ← valueOf fuel .level afterBlockKey
      return (k, v) :: (← blockEntries fuel)
    | _ => do
      expect .blockEnd
      return []

/-- The items of a flow sequence up to its end; a key with a mark or a colon makes a mapping of
one entry. -/
def flowItems : Nat → Bool → Read (List Node)
  | 0, _ => throw .malformed
  | fuel + 1, first => do
    if (← peek) ≠ .flowSequenceEnd ∧ !first then expect .flowEntry
    match ← peek with
    | .flowSequenceEnd => do
      skip
      return []
    | .key => do
      skip
      let k ← optional fuel .flow (afterFlowKey .flowSequenceEnd)
      let v ← valueOf fuel .flow [.flowEntry, .flowSequenceEnd]
      return .mapping (some .mapping) [(k, v)] :: (← flowItems fuel false)
    | _ => do
      let n ← node fuel .flow
      return n :: (← flowItems fuel false)

/-- The entries of a flow mapping up to its end. -/
def flowEntries : Nat → Bool → Read (List (Node × Node))
  | 0, _ => throw .malformed
  | fuel + 1, first => do
    if (← peek) ≠ .flowMappingEnd ∧ !first then expect .flowEntry
    match ← peek with
    | .flowMappingEnd => do
      skip
      return []
    | .key => do
      skip
      let k ← optional fuel .flow (afterFlowKey .flowMappingEnd)
      let v ← valueOf fuel .flow [.flowEntry, .flowMappingEnd]
      return (k, v) :: (← flowEntries fuel false)
    | _ => do
      let k ← node fuel .flow
      return (k, nothing) :: (← flowEntries fuel false)

end

/-! ## Documents -/

/-- The handles of tags that need no directive. -/
def standardHandles : List (Text × Text) := [("!", "!"), ("!!", Kind.standardTags)]

/-- The directives before a document: at most one version, which is 1, and each handle once. -/
def directives : Nat → Bool → List (Text × Text) → Read (List (Text × Text))
  | 0, _, _ => throw .malformed
  | fuel + 1, versioned, handles => do
    match ← peek with
    | .directive d => do
      skip
      match d with
      | .version major =>
        if versioned ∨ major ≠ 1 then throw .malformed else directives fuel true handles
      | .handle name expansion =>
        if (handles.lookup name).isSome then throw .malformed
        else directives fuel versioned ((name, expansion) :: handles)
      | .other => directives fuel versioned handles
    | _ => return handles

/-- Goes past the marks behind a document. -/
def skipEnds : Nat → Read Unit
  | 0 => throw .malformed
  | fuel + 1 => do
    if (← peek) = .documentEnd then
      skip
      skipEnds fuel
    else return

/-- The content of a document behind its mark. -/
def content (fuel : Nat) : Read Node := do
  match ← peek with
  | .directive _ | .documentStart | .documentEnd | .streamEnd => return nothing
  | _ => node fuel .block

/-- The node of a document that has no mark before it, or has directives and a mark. -/
def document (fuel : Nat) : Read (Option Node) := do
  let marked ← match ← peek with
    | .streamEnd => return none
    | .directive _ | .documentStart => pure true
    | _ => pure false
  let own ← if marked then directives fuel false [] else pure []
  modify fun s => { s with handles := own ++ standardHandles }
  if marked then
    expect .documentStart
    some <$> content fuel
  else some <$> node fuel .block

/-- The node of the only document, if there is any. -/
def only (fuel : Nat) : Read (Option Node) := do
  let n ← document fuel
  if n.isSome then skipEnds fuel
  if (← peek) = .streamEnd then return n else throw .malformed

/-- The node that a text spells, none if it spells nothing. -/
def ofText (t : Text) : Except ReadFault (Option Node) :=
  let (tokens, fault) := Token.ofText t
  (only (4 * tokens.length + 4)).run' { tokens, fault }

end XofConformance.Yaml.Node
