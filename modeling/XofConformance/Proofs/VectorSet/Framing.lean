import XofConformance.Proofs.Lists
import XofConformance.VectorSet.Document
import XofConformance.VectorSet.Envelope

/-!
# What a document opens to

A document that cannot be loaded or opened is bad input. In an array of objects the first one that
has a version gives it, and of the others the first one that has groups is the body; a value that is
no array is a body by itself.

    unwrap v = .ok (body, version) ↔ Frames v body version                (unwrap_eq_ok_iff)

So the body is the first entry that has groups, whatever else there is, but for one case: an entry
that has both parts, with neither part in what stands before it, is taken for its version alone.
Its groups are overlooked, and the body is looked for behind it     (unwrap_first_groups).
-/

namespace XofConformance

/-! ## Loading -/

/-- A document that is not loaded is bad input. -/
theorem Document.exists_of_load_eq_error {d : Document} {f : Fault} (h : d.load = .error f) :
    ∃ why, f = .input why := by
  have htext : ∀ t, loadText t = .error f → ∃ why, f = .input why := by
    intro t ht
    unfold loadText at ht
    split at ht
    · cases ht
    · cases ht
      exact ⟨_, rfl⟩
  cases d with
  | bytes b =>
    simp only [load] at h
    split at h
    · exact htext _ h
    · cases h
      exact ⟨_, rfl⟩
  | text t => exact htext t h
  | value v =>
    cases v with
    | text t => exact htext t h
    | _ => cases h

namespace Envelope

/-! ## Entries -/

/-- In a list of entries, all are objects or one is not. -/
theorem objects_or_not (entries : List Json) :
    (∀ e ∈ entries, e.fields?.isSome = true) ∨ ∃ e ∈ entries, e.fields?.isSome = false := by
  by_cases h : ∃ e ∈ entries, e.fields?.isSome = false
  · exact .inr h
  · refine .inl fun e he => ?_
    rw [← Bool.not_eq_false]
    exact fun hno => h ⟨e, he, hno⟩

/-- The entry has a version. -/
def hasVersion (e : Json) : Bool := (e.field? "acvVersion").isSome

/-- The entry has groups. -/
def hasGroups (e : Json) : Bool := (e.field? "testGroups").isSome

/-- The version that the first entry with one gives. -/
def versionOf (entries : List Json) : Option Text :=
  (entries.find? hasVersion).map fun e => (e.field "acvVersion").shown

/-- A body and a version are what a value opens to. -/
inductive Frames : Json → Json → Option Text → Prop
  | bare {v : Json} (h : ∀ entries, v ≠ .array entries) : Frames v v none
  | framed {entries : List Json} {body : Json}
      (hobjects : ∀ e ∈ entries, e.fields?.isSome = true)
      (hbody : (entries.eraseP hasVersion).find? hasGroups = some body) :
      Frames (.array entries) body (some ((versionOf entries).getD []))

namespace Found

variable {found : Found} {e : Json} {entries : List Json}

/-- The first version that is met is kept. -/
theorem take_of_version (he : hasVersion e = true) (h : found.version = none) :
    found.take e = { found with version := some (e.field "acvVersion").shown } := by
  obtain ⟨v, hv⟩ := Option.isSome_iff_exists.1 he
  unfold take Json.field
  simp only [hv, h, Option.getD_some]

/-- Any other entry is the body if it has groups and there is none yet. -/
theorem take_of_other (h : hasVersion e = false ∨ found.version.isSome = true) :
    found.take e = { found with body := found.body <|> [e].find? hasGroups } := by
  have htake : found.take e =
      if hasGroups e && found.body.isNone then { found with body := some e } else found := by
    unfold take hasGroups
    unfold hasVersion at h
    split
    · next v hv hnone =>
      rw [hv, hnone] at h
      simp at h
    · rfl
  rw [htake]
  obtain ⟨version, body⟩ := found
  cases body <;> cases hgroups : hasGroups e <;> simp [hgroups]

theorem takeAll_cons (he : e.fields?.isSome = true) :
    found.takeAll (e :: entries) = (found.take e).takeAll entries := by
  obtain ⟨fields, hfields⟩ := Option.isSome_iff_exists.1 he
  cases e <;> cases hfields
  rfl

/-- What is found in objects, after what was found before them. -/
theorem takeAll_of_objects (h : ∀ e ∈ entries, e.fields?.isSome = true) :
    found.takeAll entries = .ok
      { version := found.version <|> versionOf entries
        body := found.body <|>
          (if found.version.isSome then entries else entries.eraseP hasVersion).find?
            hasGroups } := by
  induction entries generalizing found with
  | nil => cases found; simp [takeAll, versionOf]
  | cons e rest ih =>
    obtain ⟨he, hrest⟩ := List.forall_mem_cons.1 h
    rw [takeAll_cons he, ih hrest]
    obtain ⟨version, body⟩ := found
    have hfirst : ∀ l, (e :: l).find? hasGroups = ([e].find? hasGroups).or (l.find? hasGroups) := by
      intro l
      show ([e] ++ l).find? hasGroups = _
      exact List.find?_append
    cases version with
    | some version =>
      rw [take_of_other (.inr rfl)]
      simp [hfirst rest, Option.or_assoc]
    | none =>
      by_cases hversion : hasVersion e = true
      · rw [take_of_version hversion rfl]
        simp [versionOf, hversion]
      · rw [take_of_other (.inl (Bool.eq_false_iff.2 hversion))]
        have herase : (e :: rest).eraseP hasVersion = e :: rest.eraseP hasVersion :=
          List.eraseP_cons_of_neg hversion
        simp [versionOf, hversion, herase, hfirst (rest.eraseP hasVersion), Option.or_assoc]

/-- An entry that is no object is bad input, whatever else there is. -/
theorem takeAll_of_not_object (h : ∃ e ∈ entries, e.fields?.isSome = false) :
    found.takeAll entries = .error (.input .entryNotObject) := by
  induction entries generalizing found with
  | nil => simp at h
  | cons e rest ih =>
    cases e with
    | object fields =>
      refine ih ?_
      simpa [Json.fields?] using h
    | _ => rfl

end Found

/-! ## Values -/

variable {v body : Json} {version : Option Text} {f : Fault}

/-- An array of objects opens to its parts, unless none of them is the body. -/
theorem unwrap_of_objects {entries : List Json} (h : ∀ e ∈ entries, e.fields?.isSome = true) :
    unwrap (.array entries) =
      match (entries.eraseP hasVersion).find? hasGroups with
      | none => .error (.input .noBody)
      | some body => .ok (body, some ((versionOf entries).getD [])) := by
  have hfound := @Found.takeAll_of_objects {} entries h
  simp only [unwrap, hfound]
  cases hbody : (entries.eraseP hasVersion).find? hasGroups with
  | none => simp [hbody, bind, Except.bind, throw, throwThe, MonadExceptOf.throw]
  | some body => simp [hbody, bind, Except.bind, pure, Except.pure]

/-- An array in which something is no object does not open. -/
theorem unwrap_of_not_object {entries : List Json} (h : ∃ e ∈ entries, e.fields?.isSome = false) :
    unwrap (.array entries) = .error (.input .entryNotObject) := by
  simp only [unwrap, Found.takeAll_of_not_object h]
  rfl

theorem unwrap_eq_ok_iff : unwrap v = .ok (body, version) ↔ Frames v body version := by
  constructor
  · intro h
    cases v with
    | array entries =>
      rcases objects_or_not entries with hobjects | hother
      · rw [unwrap_of_objects hobjects] at h
        split at h
        · cases h
        · next hbody =>
          cases h
          exact .framed hobjects hbody
      · rw [unwrap_of_not_object hother] at h
        cases h
    | _ =>
      cases h
      exact .bare nofun
  · intro h
    cases h with
    | bare h => exact unwrap_bare h
    | framed hobjects hbody => rw [unwrap_of_objects hobjects, hbody]

/-- A value that does not open is bad input. -/
theorem exists_of_unwrap_eq_error (h : unwrap v = .error f) : ∃ why, f = .input why := by
  cases v with
  | array entries =>
    rcases objects_or_not entries with hobjects | hother
    · rw [unwrap_of_objects hobjects] at h
      split at h
      · cases h
        exact ⟨_, rfl⟩
      · cases h
    · rw [unwrap_of_not_object hother] at h
      cases h
      exact ⟨_, rfl⟩
  | _ => cases h

/-! ## Overlooked groups -/

/-- Of the entries, the first one that has a version or groups has both; the rest follow it. -/
inductive Overlooks : List Json → Json → List Json → Prop
  | here {e : Json} {after : List Json} (hversion : hasVersion e = true)
      (hgroups : hasGroups e = true) : Overlooks (e :: after) e after
  | later {e₀ e : Json} {rest after : List Json} (hversion : hasVersion e₀ = false)
      (hgroups : hasGroups e₀ = false) (h : Overlooks rest e after) : Overlooks (e₀ :: rest) e after

/-- Groups that are overlooked leave the body to the entries behind them. -/
theorem Overlooks.find?_eraseP {entries after : List Json} {e : Json}
    (h : Overlooks entries e after) :
    (entries.eraseP hasVersion).find? hasGroups = after.find? hasGroups := by
  induction h with
  | here hversion _ => rw [List.eraseP_cons_of_pos hversion]
  | later hversion hgroups _ ih =>
    rw [List.eraseP_cons_of_neg (Bool.eq_false_iff.1 hversion),
      List.find?_cons_of_neg (Bool.eq_false_iff.1 hgroups), ih]

/-- They do come with the version. -/
theorem Overlooks.versionOf_eq {entries after : List Json} {e : Json}
    (h : Overlooks entries e after) : versionOf entries = some (e.field "acvVersion").shown := by
  unfold versionOf
  induction h with
  | here hversion _ => rw [List.find?_cons_of_pos hversion]; rfl
  | later hversion _ _ ih => rw [List.find?_cons_of_neg (Bool.eq_false_iff.1 hversion), ih]

/-- Where no groups are overlooked, the entry that gives the version is not missed. -/
theorem find?_eraseP_of_not_overlooks {entries : List Json}
    (h : ∀ e after, ¬ Overlooks entries e after) :
    (entries.eraseP hasVersion).find? hasGroups = entries.find? hasGroups := by
  induction entries with
  | nil => rfl
  | cons e rest ih =>
    cases hversion : hasVersion e with
    | true =>
      have hgroups : ¬ hasGroups e = true := fun hgroups => h e rest (.here hversion hgroups)
      rw [List.eraseP_cons_of_pos hversion, List.find?_cons_of_neg hgroups]
    | false =>
      rw [List.eraseP_cons_of_neg (Bool.eq_false_iff.1 hversion)]
      cases hgroups : hasGroups e with
      | true => rw [List.find?_cons_of_pos hgroups, List.find?_cons_of_pos hgroups]
      | false =>
        rw [List.find?_cons_of_neg (Bool.eq_false_iff.1 hgroups),
          List.find?_cons_of_neg (Bool.eq_false_iff.1 hgroups)]
        exact ih fun e' after hrest => h e' after (.later hversion hgroups hrest)

/-- **The first groups.** Where no groups are overlooked, an array of objects opens exactly if some
entry has groups. The body is then the first such entry, and the version is the text of the first
one that is given, or empty. Where an entry's groups are overlooked, the version is that entry's
and the body is the first entry behind it that has groups; without one there the array does not
open. -/
theorem unwrap_first_groups (entries : List Json) (h : ∀ e ∈ entries, e.fields?.isSome = true) :
    ((∀ e after, ¬ Overlooks entries e after) →
      ((∃ r, unwrap (.array entries) = .ok r) ↔ ∃ e ∈ entries, hasGroups e = true) ∧
      ∀ body version, unwrap (.array entries) = .ok (body, version) ↔
        entries.find? hasGroups = some body ∧ version = some ((versionOf entries).getD [])) ∧
    ∀ e after, Overlooks entries e after →
      unwrap (.array entries) =
        match after.find? hasGroups with
        | none => .error (.input .noBody)
        | some body => .ok (body, some (e.field "acvVersion").shown) := by
  constructor
  · intro hno
    rw [unwrap_of_objects h, find?_eraseP_of_not_overlooks hno]
    cases hbody : entries.find? hasGroups with
    | none =>
      refine ⟨⟨nofun, fun ⟨e, he, hgroups⟩ => ?_⟩, fun _ _ => ⟨nofun, nofun⟩⟩
      exact absurd hgroups (List.find?_eq_none.1 hbody e he)
    | some body =>
      refine ⟨⟨fun _ => ⟨body, List.mem_of_find?_eq_some hbody, List.find?_some hbody⟩,
        fun _ => ⟨_, rfl⟩⟩, fun body' version => ?_⟩
      rw [Except.ok.injEq, Prod.mk.injEq, Option.some.injEq, eq_comm (a := version)]
  · intro e after hover
    rw [unwrap_of_objects h, hover.find?_eraseP, hover.versionOf_eq]
    rfl

/-- Behind an entry with neither part, groups that come with a version are the body if a version was
given before them, and are overlooked if none was. -/
theorem unwrap_first_groups_versions :
    unwrap (.array [.object [("vsId", .null)], .object [("acvVersion", .text "1.0")],
        .object [("acvVersion", .text "2.0"), ("testGroups", .array [])]]) =
      .ok (.object [("acvVersion", .text "2.0"), ("testGroups", .array [])], some "1.0") ∧
    unwrap (.array [.object [("vsId", .null)],
        .object [("acvVersion", .text "2.0"), ("testGroups", .array [])],
        .object [("testGroups", .null)]]) =
      .ok (.object [("testGroups", .null)], some "2.0") := by
  refine ⟨((unwrap_first_groups _ ?_).1 ?_).2 _ _ |>.2 ⟨rfl, rfl⟩,
    (unwrap_first_groups _ ?_).2 _ _ (.later rfl rfl (.here rfl rfl))⟩
  · decide
  · rintro e after h
    cases h with
    | here hversion _ => cases hversion
    | later _ _ h =>
      cases h with
      | here _ hgroups => cases hgroups
      | later hversion _ _ => cases hversion
  · decide

/-- One entry with both parts has groups, and does not open. -/
theorem not_unwrap_iff_hasGroups :
    ¬ ((∃ r, unwrap (.array [.object [("acvVersion", .text "1.0"), ("testGroups", .array [])]]) =
        .ok r) ↔
      ∃ e ∈ [Json.object [("acvVersion", .text "1.0"), ("testGroups", .array [])]],
        hasGroups e = true) := by
  intro h
  obtain ⟨r, hr⟩ := h.2 ⟨_, List.mem_singleton_self _, rfl⟩
  cases hr

end Envelope

end XofConformance
