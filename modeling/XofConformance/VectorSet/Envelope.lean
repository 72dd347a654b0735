import XofConformance.Fault
import XofConformance.VectorSet.Basic

/-!
# The envelope of a document

A document is either a bare body or an array of objects, one of which gives the protocol version
and one the body. A response goes out in the form in which the vector set came in.

    unwrap v = .ok (v, none)                    for a value that is no array   (unwrap_bare)
-/

namespace XofConformance.Envelope

/-! ## Opening -/

/-- The version and the body found so far. -/
structure Found where
  version : Option Text := none
  body : Option Json := none

/-- One entry: it gives the version if none is known yet, and otherwise may be the body. -/
def Found.take (found : Found) (entry : Json) : Found :=
  match entry.field? "acvVersion", found.version with
  | some v, none => { found with version := some v.shown }
  | _, _ =>
    if (entry.field? "testGroups").isSome && found.body.isNone then
      { found with body := some entry }
    else found

/-- The entries of an array in order; each has to be an object. -/
def Found.takeAll (found : Found) : List Json → Except Fault Found
  | [] => .ok found
  | .object fields :: rest => (found.take (.object fields)).takeAll rest
  | _ :: _ => .error (.input .entryNotObject)

/-- The body of a document, and the version if the document is an array. -/
def unwrap : Json → Except Fault (Json × Option Text)
  | .array entries => do
    let found ← Found.takeAll {} entries
    match found.body with
    | none => throw (.input .noBody)
    | some body => return (body, some (found.version.getD []))
  | v => .ok (v, none)

/-! ## Closing -/

/-- The version of an envelope that was given none. -/
def defaultVersion : Text := "1.0"

/-- The response document of a vector set: a bare object, or an array as the set was. -/
def wrap (vs : VectorSet) (algorithm : Text) (groups : List Json) : Json :=
  match vs.acvVersion with
  | none => .object [("testGroups", .array groups)]
  | some version =>
    let optional (key : Text) (value : Option Json) : List (Text × Json) :=
      (value.map fun v => (key, v)).toList
    .array [
      .object [("acvVersion", .text (if version.isEmpty then defaultVersion else version))],
      .object (("algorithm", .text algorithm) :: ("testGroups", .array groups)
        :: (optional "vsId" (vs.vsId.map .number)
          ++ optional "revision" (vs.revision.map .text)
          ++ optional "isSample" (vs.isSample.map .bool)))]

/-! ## Lemmas -/

theorem unwrap_bare {v : Json} (h : ∀ items, v ≠ .array items) : unwrap v = .ok (v, none) := by
  cases v <;> first | rfl | exact absurd rfl (h _)

end XofConformance.Envelope
