import XofConformance.Proofs.VectorSet.Decoding
import XofConformance.Proofs.VectorSet.Envelope

/-!
# The envelope around a response

A response goes out in the form in which its vector set came in. To a bare document the response is
bare, with the groups and nothing else. To an array it is an array: its version is the first one
that the document gives, or the default for one that is empty or not given, and its body names the
algorithm, holds the groups and repeats what the document's body says about the set. A field is
repeated if it is there, whatever its value: zero, false and the empty text are values like others.

    ofDocument d = .ok vs → (wrap vs algorithm groups is an array ↔ the value of d is one)
    unwrap (wrap vs algorithm groups) = .ok (body, version)
      with body.Answers original algorithm groups                          (wrap_ofDocument)
-/

namespace XofConformance

/-- The value is an array. -/
def Json.IsArray (v : Json) : Prop := ∃ items, v = .array items

/-- The body answers the original one: it names the algorithm, holds the groups, repeats what the
original says about the set as a whole, and says nothing else. -/
structure Json.Answers (body original : Json) (algorithm : Text) (groups : List Json) : Prop where
  algorithm : body.field? "algorithm" = some (.text algorithm)
  testGroups : body.field? "testGroups" = some (.array groups)
  vsId : body.field? "vsId" = original.field? "vsId"
  revision : body.field? "revision" = original.field? "revision"
  isSample : body.field? "isSample" = original.field? "isSample"
  nothingElse : ∀ fields, body.fields? = some fields →
    (fields.map Prod.fst).Sublist ["algorithm", "testGroups", "vsId", "revision", "isSample"]

namespace Envelope

open Json (lookup lookup_append Answers IsArray)

variable {vs : VectorSet} {algorithm key : Text} {groups entries : List Json}

/-! ## Fields of a body -/

theorem lookup_optionalField {key' : Text} {value : Option Json} :
    lookup key (optionalField key' value) = if key' = key then value else none := by
  cases value with
  | none => exact (ite_self _).symm
  | some v => rfl

theorem field?_body : (Json.object (bodyFields vs algorithm groups)).field? key =
    if "algorithm" = key then some (.text algorithm)
    else if "testGroups" = key then some (.array groups)
    else ((if "vsId" = key then vs.vsId.map .number else none).or
      (if "revision" = key then vs.revision.map .text else none)).or
      (if "isSample" = key then vs.isSample.map .bool else none) := by
  show lookup key (bodyFields vs algorithm groups) = _
  rw [bodyFields, lookup, lookup, lookup_append, lookup_append, lookup_optionalField, lookup_optionalField,
    lookup_optionalField]

/-- The body of a response answers the body that the vector set was read from. -/
theorem answers_body {original : Json} (h : vs.ReadFrom original) :
    (Json.object (bodyFields vs algorithm groups)).Answers original algorithm groups where
  algorithm := rfl
  testGroups := rfl
  vsId := by rw [field?_body, h.vsId]; simp +decide
  revision := by rw [field?_body, h.revision]; simp +decide
  isSample := by rw [field?_body, h.isSample]; simp +decide
  nothingElse := by
    intro fields hfields
    cases hfields
    exact keys_bodyFields

/-! ## Versions -/

/-- The version that goes out: what the entries give, or the default if that is empty or nothing. -/
def versionFor (entries : List Json) : Text :=
  ((versionOf entries).filter fun version => !version.isEmpty).getD defaultVersion

/-- A response in an envelope opens to its body, with the version that goes out. -/
theorem unwrap_wrap (h : vs.acvVersion = some ((versionOf entries).getD [])) :
    unwrap (wrap vs algorithm groups) =
      .ok (.object (bodyFields vs algorithm groups), some (versionFor entries)) := by
  have hversion : versionFor entries =
      if ((versionOf entries).getD []).isEmpty then defaultVersion
      else (versionOf entries).getD [] := by
    unfold versionFor
    cases versionOf entries with
    | none => rfl
    | some version => cases version <;> rfl
  have hentry : (versionEntry ((versionOf entries).getD [])).field? "acvVersion" =
      some (.text (versionFor entries)) := by
    rw [hversion]
    rfl
  have hgroups : ((Json.object (bodyFields vs algorithm groups)).field? "testGroups").isSome =
      true := rfl
  rw [wrap_enveloped h]
  exact unwrap_pair rfl rfl hentry hgroups

/-! ## Responses -/

/-- **The envelope.** The response to a document is an array exactly if the document is one. To an
array, the response opens to a body that answers the document's body, with the version that the
document gives or the default; to anything else it is the groups alone. -/
theorem wrap_ofDocument (d : Document) (vs : VectorSet) (algorithm : Text) (groups : List Json)
    (h : VectorSet.ofDocument d = .ok vs) :
    ∃ v, d.load = .ok v ∧
      ((wrap vs algorithm groups).IsArray ↔ v.IsArray) ∧
      (∀ entries, v = .array entries → ∃ original body,
        unwrap v = .ok (original, some ((versionOf entries).getD [])) ∧
        unwrap (wrap vs algorithm groups) = .ok (body, some (versionFor entries)) ∧
        body.Answers original algorithm groups) ∧
      (¬ v.IsArray → wrap vs algorithm groups = .object [("testGroups", .array groups)]) := by
  obtain ⟨v, original, version, hload, hunwrap, hfits, rfl⟩ := VectorSet.ofDocument_eq_ok_iff.1 h
  rw [Shape.fits_vectorSet] at hfits
  refine ⟨v, hload, ?_⟩
  cases unwrap_eq_ok_iff.1 hunwrap with
  | bare hbare =>
    have hwrap : wrap (.ofBody v none) algorithm groups = .object [("testGroups", .array groups)] :=
      wrap_bare rfl
    rw [hwrap]
    exact ⟨⟨nofun, fun ⟨entries, hv⟩ => absurd hv (hbare entries)⟩,
      fun entries hv => absurd hv (hbare entries), fun _ => rfl⟩
  | @framed entries _ hobjects hbody =>
    have hversion : (VectorSet.ofBody original (some ((versionOf entries).getD []))).acvVersion =
      some ((versionOf entries).getD []) := rfl
    refine ⟨⟨fun _ => ⟨_, rfl⟩, fun _ => ⟨_, wrap_enveloped hversion⟩⟩, ?_,
      fun hno => absurd ⟨_, rfl⟩ hno⟩
    intro entries' hentries
    cases hentries
    exact ⟨original, _, hunwrap, unwrap_wrap hversion, answers_body (VectorSet.readFrom_ofBody hfits)⟩

/-- An identifier that is zero, an empty revision and a sample that is none are repeated; an empty
version is replaced. -/
theorem wrap_ofDocument_of_empty_fields :
    let d : Document := .value (.array [.object [("acvVersion", .text [])],
      .object [("vsId", .number (.int 0)), ("revision", .text []), ("isSample", .bool false),
        ("testGroups", .array [])]])
    let vs : VectorSet :=
      { groups := [], vsId := some (.int 0), revision := some [], isSample := some false,
        acvVersion := some [] }
    VectorSet.ofDocument d = .ok vs ∧ ∃ body,
      unwrap (wrap vs "cSHAKE-128" [.null]) = .ok (body, some "1.0") ∧
      body.field? "vsId" = some (.number (.int 0)) ∧ body.field? "revision" = some (.text []) ∧
      body.field? "isSample" = some (.bool false) ∧
      body.field? "testGroups" = some (.array [.null]) := by
  intro d vs
  have hread : VectorSet.ofDocument d = .ok vs := eq_ok_of_toOption (by decide +kernel)
  obtain ⟨v, hload, -, hanswers, -⟩ := wrap_ofDocument d vs "cSHAKE-128" [.null] hread
  cases hload
  obtain ⟨original, body, horiginal, hbody, h⟩ := hanswers _ rfl
  cases horiginal
  exact ⟨hread, body, hbody, h.vsId, h.revision, h.isSample, h.testGroups⟩

end Envelope

end XofConformance
