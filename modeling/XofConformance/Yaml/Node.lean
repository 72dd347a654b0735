import XofConformance.Yaml.Kind

/-!
# Nodes of a YAML document

A node is a scalar, a sequence or a mapping, with a kind that its tag or its spelling gives; a
tag of no known kind leaves it without one. An alias is the node it names, except inside that
node itself.
-/

namespace XofConformance.Yaml

/-- A node of a document. -/
inductive Node
  | scalar (kind : Option Kind) (content : Text)
  | sequence (kind : Option Kind) (items : List Node)
  | mapping (kind : Option Kind) (entries : List (Node × Node))
  /-- A collection that the node is inside of. -/
  | enclosing
  deriving Inhabited

namespace Node

/-- The node that stands where nothing is written. -/
def nothing : Node := .scalar (some .null) []

mutual

/-- How deep the collections in a node go. -/
def depth : Node → Nat
  | .scalar .. | .enclosing => 1
  | .sequence _ items => depthItems items + 1
  | .mapping _ entries => depthEntries entries + 1

/-- The depth of the deepest item. -/
def depthItems : List Node → Nat
  | [] => 0
  | n :: rest => max (depth n) (depthItems rest)

/-- The depth of the deepest key or value. -/
def depthEntries : List (Node × Node) → Nat
  | [] => 0
  | (k, v) :: rest => max (max (depth k) (depth v)) (depthEntries rest)

end

/-! ## Parts -/

/-- The kind of a node. -/
def kind? : Node → Option Kind
  | .scalar k _ | .sequence k _ | .mapping k _ => k
  | .enclosing => none

/-- The content of a scalar, or of the value under the key `=` of a mapping. -/
def content? : Node → Option Text
  | .scalar _ t => some t
  | .mapping _ entries => contentOf entries
  | _ => none
where
  contentOf : List (Node × Node) → Option Text
    | [] => none
    | (k, v) :: rest => if k.kind? = some .value then content? v else contentOf rest

/-! ## Merging -/

mutual

/-- The entries of a mapping with those merged in that stand under the key `<<`: they come first,
and of several mappings the last one's. The key `=` is a text. Nothing if something else than
mappings is to be merged. -/
def merged? : List (Node × Node) → Option (List (Node × Node) × List (Node × Node))
  | [] => some ([], [])
  | (k, v) :: rest =>
    match k.kind? with
    | some .merge => do
      let source ← mergeSource? v
      let (merge, own) ← merged? rest
      return (source ++ merge, own)
    | some .value => do
      let (merge, own) ← merged? rest
      return (merge, (asText k, v) :: own)
    | _ => do
      let (merge, own) ← merged? rest
      return (merge, (k, v) :: own)

/-- The entries of a mapping, or of the mappings of a sequence. -/
def mergeSource? : Node → Option (List (Node × Node))
  | .mapping _ entries => (merged? entries).map fun (merge, own) => merge ++ own
  | .sequence _ items => mergeSources? items
  | .enclosing => some []
  | .scalar .. => none

/-- The entries of the mappings of a sequence, the last mapping first. -/
def mergeSources? : List Node → Option (List (Node × Node))
  | [] => some []
  | .mapping _ entries :: rest => do
    let (merge, own) ← merged? entries
    return (← mergeSources? rest) ++ (merge ++ own)
  | .enclosing :: rest => mergeSources? rest
  | _ => none

/-- A key taken as a text. -/
def asText : Node → Node
  | .scalar _ t => .scalar (some .text) t
  | n => n

end

/-- The entries of a mapping as they count. -/
def entries? (entries : List (Node × Node)) : Option (List (Node × Node)) :=
  (merged? entries).map fun (merge, own) => merge ++ own

end Node

end XofConformance.Yaml
