import XofConformance.Text.Basic

/-!
# Tokens of a YAML document
-/

namespace XofConformance.Yaml

/-- A line that begins with a percent sign. -/
inductive Directive
  | version (major : Nat)
  | handle (name expansion : Text)
  | other
  deriving DecidableEq

/-- A tag as it is written: a suffix after a handle, or one that stands for itself. -/
structure TagName where
  handle : Option Text
  suffix : Text
  deriving DecidableEq

/-- A mark or a scalar. -/
inductive Token
  | streamEnd
  | directive (d : Directive)
  | documentStart
  | documentEnd
  | blockSequenceStart
  | blockMappingStart
  | blockEnd
  | flowSequenceStart
  | flowSequenceEnd
  | flowMappingStart
  | flowMappingEnd
  | blockEntry
  | flowEntry
  | key
  | value
  | alias (name : Text)
  | anchor (name : Text)
  | tag (name : TagName)
  | scalar (plain : Bool) (content : Text)
  deriving DecidableEq

end XofConformance.Yaml
