/-!
# Faults of a YAML document

A document is malformed, or it is well formed and holds a scalar that is no value of its kind.
-/

namespace XofConformance.Yaml

/-- Why a scalar is no value of its kind. -/
inductive ScalarDefect
  /-- A truth value is none of the known words. -/
  | unknownWord
  /-- A number has no digits at all. -/
  | empty
  /-- A number or a point in time cannot be read or does not exist. -/
  | malformed
  /-- A point in time is not written as one. -/
  | notTime
  /-- A number does not fit where it has to. -/
  | tooLarge
  deriving DecidableEq, Repr

/-- Why a document has no value. -/
inductive ReadFault
  | malformed
  | scalar (why : ScalarDefect)
  deriving DecidableEq, Repr

end XofConformance.Yaml
