import XofConformance.Yaml.Node.Reader
import XofConformance.Yaml.Value

/-!
# From nodes to values

Collections are filled level by level: all nodes of one level get their values before the items
of the collections among them. So of several faults the one on the least level counts, and on a
level the first.
-/

namespace XofConformance.Yaml.Value

/-- Faults with the levels they come up on, in the order of the document. -/
abbrev Faults := List (Nat × ReadFault)

/-- The first of the faults on the least level. -/
def earliest (faults : Faults) : Option ReadFault :=
  (faults.foldl (fun (best : Option (Nat × ReadFault)) f =>
    match best with
    | some b => if f.1 < b.1 then some f else some b
    | none => some f) none).map (·.2)

/-- A value, and what is wrong inside it. -/
structure Reading where
  value : Value
  faults : Faults := []

/-- No value, for a fault on a level. -/
def Reading.failed (level : Nat) (f : ReadFault) : Reading :=
  { value := .scalar .null, faults := [(level, f)] }

/-- The scalar value of a node. -/
def scalarReading (level : Nat) (kind : Kind) (n : Node) : Reading :=
  match n.content? with
  | none => .failed level .malformed
  | some content =>
    match Scalar.ofContent kind content with
    | .ok s => { value := .scalar s }
    | .error f => .failed level f

/-- A scalar as the key of an entry; a collection cannot be one. -/
def keyReading (level : Nat) (r : Reading) : Scalar × Faults :=
  match r.value with
  | .scalar s => (s, r.faults)
  | _ => (.null, r.faults ++ [(level, .malformed)])

/-- The items of a sequence. -/
def listReading (items : List Reading) : Reading :=
  { value := .list (items.map (·.value)), faults := items.flatMap (·.faults) }

/-- The entries of a mapping on a level. -/
def entriesReading (level : Nat) (entries : List (Reading × Reading)) :
    List (Scalar × Value) × Faults :=
  let keyed := entries.map fun e => (keyReading level e.1, e.2)
  (entriesOf (keyed.map fun e => (e.1.1, e.2.value)),
    keyed.flatMap fun e => e.1.2 ++ e.2.faults)

/-- The value of a node that gets its value on a level. -/
def ofNode : Nat → Nat → Node → Reading
  | 0, level, _ => .failed level .malformed
  | _, _, .enclosing => { value := .mapping [] }
  | fuel + 1, level, n =>
    let inside := level + 1
    let entries (es : List (Node × Node)) : List (Reading × Reading) :=
      es.map fun e => (ofNode fuel inside e.1, ofNode fuel inside e.2)
    match n.kind?, n with
    | some .sequence, .sequence _ items => listReading (items.map (ofNode fuel inside))
    | some .mapping, .mapping _ es =>
      match Node.entries? es with
      | none => .failed inside .malformed
      | some es =>
        let (fields, faults) := entriesReading inside (entries es)
        { value := .mapping fields, faults }
    | some .set, .mapping _ es =>
      match Node.entries? es with
      | none => .failed inside .malformed
      | some es =>
        let (fields, faults) := entriesReading inside (entries es)
        { value := .set (fields.map (·.1)), faults }
    | some .orderedMap, .sequence _ items | some .pairs, .sequence _ items =>
      listReading (items.map fun item =>
        match item with
        | .mapping _ [(k, v)] => listReading [ofNode fuel inside k, ofNode fuel inside v]
        | _ => .failed inside .malformed)
    | some .sequence, _ | some .mapping, _ | some .set, _ | some .orderedMap, _
    | some .pairs, _ => .failed inside .malformed
    | some kind, n => scalarReading level kind n
    | none, _ => .failed level .malformed

/-- `c` may stand in a document. -/
def isAllowed (c : CodePoint) : Bool :=
  c == 0x09 || c == 0x0A || c == 0x0D || c == 0x85 || (0x20 ≤ c && c ≤ 0x7E)
    || (0xA0 ≤ c && c ≤ 0xD7FF) || (0xE000 ≤ c && c ≤ 0xFFFD) || 0x10000 ≤ c

/-- The value that a document spells; an empty document spells the null value. -/
def ofText (t : Text) : Except ReadFault Value := do
  if !t.all isAllowed then throw .malformed
  match ← Node.ofText t.unifyNewlines with
  | none => return .scalar .null
  | some n =>
    let r := ofNode n.depth 0 n
    match earliest r.faults with
    | some f => throw f
    | none => return r.value

end XofConformance.Yaml.Value
