import XofConformance.Fault

/-!
# Documents

A document arrives as bytes, as text or as a value. Bytes are UTF-8 text; text is JSON; a value
that is itself a text is read once more.
-/

namespace XofConformance

/-- A document in the form it arrives in. -/
inductive Document
  | bytes (b : Bytes)
  | text (t : Text)
  | value (v : Json)

namespace Document

/-- The value of a JSON text. -/
def loadText (t : Text) : Except Fault Json :=
  match Json.read t with
  | .ok v => .ok v
  | .error f => .error (.input (.notJson f))

/-- The value of a document. -/
def load : Document → Except Fault Json
  | .bytes b =>
    match Text.ofUtf8 b with
    | .ok t => loadText t
    | .error f => .error (.input (.notUtf8 f))
  | .text t => loadText t
  | .value (.text t) => loadText t
  | .value v => .ok v

end Document

end XofConformance
