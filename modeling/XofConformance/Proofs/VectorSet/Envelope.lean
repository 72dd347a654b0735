import XofConformance.Proofs.Json.Files
import XofConformance.Proofs.Prepared.Distinct
import XofConformance.Proofs.VectorSet.Framing

/-!
# Envelopes that come back

A response document that was written to a file opens to the groups that were put into it. A bare
document is its own body; in an envelope, the entry with the version is passed over and the entry
with the groups is the body, whatever else the vector set says about itself.

    unwrap (wrap vs algorithm groups).stored = .ok (body, _)
      and body.field "testGroups" = .array (groups.map stored)            (unwrap_stored_wrap)
-/

namespace XofConformance.Envelope

open Json (Writable stored)

variable {vs : VectorSet} {algorithm : Text} {groups : List Json} {key : Text} {value : Option Json}

/-- A field that is there if its value is. -/
def optionalField (key : Text) (value : Option Json) : List (Text × Json) :=
  (value.map fun v => (key, v)).toList

/-- The fields of the body in an envelope. -/
def bodyFields (vs : VectorSet) (algorithm : Text) (groups : List Json) : List (Text × Json) :=
  ("algorithm", .text algorithm) :: ("testGroups", .array groups)
    :: (optionalField "vsId" (vs.vsId.map .number) ++
      optionalField "revision" (vs.revision.map .text) ++
      optionalField "isSample" (vs.isSample.map .bool))

/-- The entry with the version. -/
def versionEntry (version : Text) : Json :=
  .object [("acvVersion", .text (if version.isEmpty then defaultVersion else version))]

theorem wrap_bare (h : vs.acvVersion = none) :
    wrap vs algorithm groups = .object [("testGroups", .array groups)] := by
  unfold wrap
  rw [h]

theorem wrap_enveloped {version : Text} (h : vs.acvVersion = some version) :
    wrap vs algorithm groups =
      .array [versionEntry version, .object (bodyFields vs algorithm groups)] := by
  unfold wrap
  rw [h]
  rfl

theorem map_fst_optionalField : ((optionalField key value).map Prod.fst).Sublist [key] := by
  cases value with
  | none => exact List.nil_sublist _
  | some v => exact List.Sublist.refl _

theorem forall_mem_optionalField {P : Json → Prop} (h : ∀ v ∈ value, P v) :
    ∀ p ∈ optionalField key value, P p.2 := by
  cases value with
  | none => exact nofun
  | some v => exact List.forall_mem_singleton.2 (h v rfl)

theorem keys_bodyFields : ((bodyFields vs algorithm groups).map Prod.fst).Sublist
    ["algorithm", "testGroups", "vsId", "revision", "isSample"] := by
  unfold bodyFields
  rw [List.map_cons, List.map_cons, List.map_append, List.map_append]
  exact .cons_cons _ (.cons_cons _
    ((map_fst_optionalField.append map_fst_optionalField).append map_fst_optionalField))

/-! ## Writing -/

theorem writable_versionEntry (version : Text) : Writable (versionEntry version) :=
  .object_singleton (by decide) (.text _)

theorem writable_bodyFields (hid : ∀ n ∈ vs.vsId, n.IsInt) (h : ∀ g ∈ groups, Writable g) :
    Writable (.object (bodyFields vs algorithm groups)) := by
  have hkeys : (["algorithm", "testGroups", "vsId", "revision", "isSample"] : List Text).Nodup := by
    decide
  have hscalar : ∀ k ∈ (["algorithm", "testGroups", "vsId", "revision", "isSample"] : List Text),
      ∀ c ∈ k, Text.IsScalar c := by decide
  refine .object_of_sublist keys_bodyFields hkeys hscalar ?_
  unfold bodyFields
  rw [List.forall_mem_cons, List.forall_mem_cons, List.forall_mem_append, List.forall_mem_append]
  refine ⟨.text _, .array h, ⟨forall_mem_optionalField fun v hv => ?_,
    forall_mem_optionalField fun v hv => ?_⟩, forall_mem_optionalField fun v hv => ?_⟩ <;>
    obtain ⟨n, hn, rfl⟩ := Option.map_eq_some_iff.1 hv
  · obtain ⟨i, rfl⟩ := hid n hn
    exact .int i
  · exact .text _
  · exact .bool _

theorem writable_wrap (hid : ∀ n ∈ vs.vsId, n.IsInt) (h : ∀ g ∈ groups, Writable g) :
    Writable (wrap vs algorithm groups) := by
  cases hversion : vs.acvVersion with
  | none =>
    rw [wrap_bare hversion]
    exact .object_singleton (by decide) (.array h)
  | some version =>
    rw [wrap_enveloped hversion]
    refine .array ?_
    rw [List.forall_mem_cons, List.forall_mem_singleton]
    exact ⟨writable_versionEntry version, writable_bodyFields hid h⟩

/-! ## Opening -/

/-- An entry with a version and an entry with groups give the version and the body. -/
theorem unwrap_pair {e e' v : Json} (he : e.fields?.isSome = true) (he' : e'.fields?.isSome = true)
    (hversion : e.field? "acvVersion" = some v)
    (hgroups : (e'.field? "testGroups").isSome = true) :
    unwrap (.array [e, e']) = .ok (e', some v.shown) := by
  have hobjects : ∀ x ∈ [e, e'], x.fields?.isSome = true :=
    List.forall_mem_cons.2 ⟨he, List.forall_mem_singleton.2 he'⟩
  have hfirst : hasVersion e = true := by rw [hasVersion, hversion]; rfl
  have herase : [e, e'].eraseP hasVersion = [e'] := List.eraseP_cons_of_pos hfirst
  have hbody : [e'].find? hasGroups = some e' := List.find?_cons_of_pos hgroups
  have hfound : versionOf [e, e'] = some v.shown := by
    simp [versionOf, hfirst, Json.field, hversion]
  rw [unwrap_of_objects hobjects, herase, hbody, hfound]
  rfl

/-- A document that comes back from a file opens to the groups that were put into it. -/
theorem unwrap_stored_wrap (hid : ∀ n ∈ vs.vsId, n.IsInt) (h : ∀ g ∈ groups, Writable g) :
    ∃ body version, unwrap (wrap vs algorithm groups).stored = .ok (body, version) ∧
      body.field "testGroups" = .array (groups.map stored) := by
  have hgroups : ∀ {v : Json}, Writable v → v.field? "testGroups" = some (.array groups) →
      v.stored.field? "testGroups" = some (.array (groups.map stored)) := by
    intro v hv hfield
    rw [Json.field?_stored hv, hfield, ← Json.stored_array]
    rfl
  cases hversion : vs.acvVersion with
  | none =>
    have hwritable : Writable (.object [("testGroups", .array groups)]) :=
      .object_singleton (by decide) (.array h)
    have hfield := hgroups hwritable rfl
    rw [wrap_bare hversion]
    refine ⟨_, none, unwrap_bare ?_, ?_⟩
    · intro items hitems
      rw [hitems] at hfield
      cases hfield
    · unfold Json.field
      rw [hfield]
      rfl
  | some version =>
    have hwritable : Writable (.object (bodyFields vs algorithm groups)) :=
      writable_bodyFields hid h
    have hfield := hgroups hwritable rfl
    rw [wrap_enveloped hversion, Json.stored_array]
    refine ⟨_, _, unwrap_pair rfl rfl (Json.field?_stored (writable_versionEntry version) _)
      (by rw [hfield]; rfl), ?_⟩
    unfold Json.field
    rw [hfield]
    rfl

end XofConformance.Envelope
