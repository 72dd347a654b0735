import XofConformance.Proofs.Comparison.Equivalence
import XofConformance.Proofs.Comparison.Stored
import XofConformance.Proofs.Exchange.Desk

/-!
# Responses read back

A response is written without its empty fields. Each field has one value that counts as empty, if
lengths are integers: the empty text, zero, no rounds. So a reader who puts these values in the
places of the fields that are not there has every answer of the group back as it was, and groups
whose written forms are equal are the same.

    g.missing = [] → (GroupResponse.ofJson? g.snapshot.toJson).map filled = some g
    g.missing = [], g'.missing = [] →
      (equal g.snapshot.toJson g'.snapshot.toJson = true ↔ g = g')          (snapshot_lossless)
-/

namespace XofConformance

/-! ## Reading -/

namespace Json

/-- The value under a key of an object, or `absent` if the object leaves the key out. -/
def fieldOr? (v : Json) (key : Text) (absent : Json) : Option Json :=
  v.fields?.map fun fields => (lookup key fields).getD absent

end Json

/-- The round that an object describes. -/
def RoundResult.ofJson? (v : Json) : Option RoundResult := do
  let md ← (← v.fieldOr? "md" (.text [])).text?
  let outLen ← (← v.fieldOr? "outLen" (.int 0)).number?
  return { md, outLen }

/-- The answer that an object describes; it has to be identified. -/
def TestResponse.ofJson? (v : Json) : Option TestResponse := do
  let tcId ← (← v.field? "tcId").number?
  let md ← (← v.fieldOr? "md" (.text [])).text?
  let outLen ← (← v.fieldOr? "outLen" (.int 0)).number?
  let items ← (← v.fieldOr? "resultsArray" (.array [])).items?
  let rounds ← items.mapM RoundResult.ofJson?
  return { tcId, md, outLen, rounds }

/-- The group that an object describes; it has to be identified, and its tests have to be there. -/
def GroupResponse.ofJson? (v : Json) : Option GroupResponse := do
  let tgId ← (← v.field? "tgId").number?
  let items ← (← v.field? "tests").items?
  let tests ← items.mapM TestResponse.ofJson?
  return { tgId, tests }

/-- The group with one slot to an answer, filled with it. -/
def GroupResponse.filled (g : GroupResponse) : OpenGroup :=
  { tgId := g.tgId, slots := g.tests.map some }

instance (n : Number) : Decidable n.IsInt :=
  match n with
  | .int k => isTrue ⟨k, rfl⟩
  | .float _ => isFalse nofun

/-- The identifier of the answer and all lengths in it are integers. -/
structure TestResponse.HasIntegers (r : TestResponse) : Prop where
  tcId : r.tcId.IsInt
  outLen : r.outLen.IsInt
  rounds : ∀ round ∈ r.rounds, round.outLen.IsInt

instance (r : TestResponse) : Decidable r.HasIntegers :=
  decidable_of_iff (r.tcId.IsInt ∧ r.outLen.IsInt ∧ ∀ round ∈ r.rounds, round.outLen.IsInt)
    ⟨fun h => ⟨h.1, h.2.1, h.2.2⟩, fun h => ⟨h.tcId, h.outLen, h.rounds⟩⟩

/-- The identifiers in the group and all lengths in it are integers. -/
structure GroupResponse.HasIntegers (g : GroupResponse) : Prop where
  tgId : g.tgId.IsInt
  tests : ∀ r ∈ g.tests, r.HasIntegers

instance (g : GroupResponse) : Decidable g.HasIntegers :=
  decidable_of_iff (g.tgId.IsInt ∧ ∀ r ∈ g.tests, r.HasIntegers)
    ⟨fun h => ⟨h.1, h.2⟩, fun h => ⟨h.tgId, h.tests⟩⟩

/-! ## Objects without empty fields -/

namespace Json

/-- An object with a field that is always there, and with those of the others that are not empty. -/
def omitEmpty (first : Text × Json) (others : List (Text × Json)) : Json :=
  .object (first :: others.filter fun p => !p.2.isEmpty)

variable {v w x y absent : Json} {key : Text} {first : Text × Json}
  {fields others : List (Text × Json)}

theorem lookup_filter (keep : Json → Bool) (hkeys : (fields.map Prod.fst).Nodup) :
    lookup key (fields.filter fun p => keep p.2) = (lookup key fields).filter keep := by
  have hsub : (fields.filter fun p => keep p.2).Sublist fields := List.filter_sublist
  ext v
  rw [lookup_eq_some_iff (hkeys.sublist (hsub.map Prod.fst)), List.mem_filter,
    Option.filter_eq_some_iff, lookup_eq_some_iff hkeys]

/-- A field that may be left out is read as it is if the value that stands for it is the only empty
one. -/
theorem fieldOr?_omitEmpty (hkeys : (others.map Prod.fst).Nodup) (hfirst : first.1 ≠ key)
    (hv : lookup key others = some v) (hempty : v.isEmpty = true → v = absent) :
    (omitEmpty first others).fieldOr? key absent = some v := by
  show some ((lookup key (first :: others.filter fun p => !p.2.isEmpty)).getD absent) = some v
  rw [lookup, if_neg hfirst, lookup_filter (fun v => !v.isEmpty) hkeys, hv,
    Option.filter_some]
  cases hcase : v.isEmpty with
  | true => exact congrArg some (hempty hcase).symm
  | false => rfl

theorem keysOnce_omitEmpty (h : KeysOnce (.object (first :: others))) :
    KeysOnce (omitEmpty first others) := by
  cases h with
  | object hkeys hvalues =>
    have hsub : (first :: others.filter fun p => !p.2.isEmpty).Sublist (first :: others) :=
      List.filter_sublist.cons_cons first
    exact .object (hkeys.sublist (hsub.map Prod.fst)) fun p hp => hvalues p (hsub.subset hp)

theorem text_of_isEmpty {t : Text} (h : (Json.text t).isEmpty = true) :
    Json.text t = .text [] := congrArg Json.text (List.isEmpty_iff.1 h)

theorem array_of_isEmpty {items : List Json} (h : (Json.array items).isEmpty = true) :
    Json.array items = .array [] := congrArg Json.array (List.isEmpty_iff.1 h)

/-- Of the integers only zero is empty; a fraction could be a zero of another form. -/
theorem number_of_isEmpty {n : Number} (hn : n.IsInt) (h : (Json.number n).isEmpty = true) :
    Json.number n = .int 0 := by
  obtain ⟨i, rfl⟩ := hn
  rw [Number.isZero_int.1 h]
  rfl

/-! ## Equal objects -/

/-- Objects that have each key once have equal values under every key if they are equal. -/
theorem sameUnder_of_same {inside : Bool} {xs ys : List (Text × Json)}
    (hxs : KeysOnce (.object xs)) (hys : KeysOnce (.object ys))
    (h : same inside (.object xs) (.object ys) = true) :
    SameUnder (fun _ x y => same true x y = true) xs ys := by
  cases hxs with
  | object hxkeys _ =>
    cases hys with
    | object hykeys _ => exact (same_object_iff_under hxkeys hykeys).1 h

theorem same_field? {inside : Bool} (key : Text) (hv : KeysOnce v) (hw : KeysOnce w)
    (h : same inside v w = true) (hx : v.field? key = some x) (hy : w.field? key = some y) :
    same true x y = true := by
  cases v with
  | object xs =>
    cases w with
    | object ys => exact (sameUnder_of_same hv hw h).values key x y hx hy
    | _ => cases hy
  | _ => cases hx

theorem SameUnder.same_getD {xs ys : List (Text × Json)}
    (h : SameUnder (fun _ x y => same true x y = true) xs ys) (key : Text)
    (habsent : same true absent absent = true) :
    same true ((lookup key xs).getD absent) ((lookup key ys).getD absent) = true := by
  have hkeys := h.keys key
  cases hx : lookup key xs with
  | none =>
    rw [hx] at hkeys
    rw [Option.isNone_iff_eq_none.1 (Option.isSome_eq_false_iff.1 hkeys.symm)]
    exact habsent
  | some x =>
    rw [hx] at hkeys
    obtain ⟨y, hy⟩ := Option.isSome_iff_exists.1 hkeys.symm
    rw [hy]
    exact h.values key x y hx hy

/-- So have they if some value stands for the fields that are not there. -/
theorem same_fieldOr? {inside : Bool} (hv : KeysOnce v) (hw : KeysOnce w)
    (h : same inside v w = true) (habsent : same true absent absent = true)
    (hx : v.fieldOr? key absent = some x) (hy : w.fieldOr? key absent = some y) :
    same true x y = true := by
  cases v with
  | object xs =>
    cases w with
    | object ys =>
      cases hx
      cases hy
      exact (sameUnder_of_same hv hw h).same_getD key habsent
    | _ => cases hy
  | _ => cases hx

theorem text_eq_of_same {s t : Text} (h : same true (.text s) (.text t) = true) : s = t :=
  beq_iff_eq.1 h

/-- Integers are the same number only if they are the same integer. -/
theorem number_eq_of_same {m n : Number} (hm : m.IsInt) (hn : n.IsInt)
    (h : same true (.number m) (.number n) = true) : m = n := by
  by_contra hne
  have hdiffer := Comparison.sameKey_number_of_ne hm hn hne
  exact Bool.false_ne_true (hdiffer.symm.trans h)

/-- Lists of what is told apart by its written form are told apart by theirs. -/
theorem eq_of_same_map {α : Type} {toJson : α → Json} {as bs : List α}
    (heq : ∀ a ∈ as, ∀ b ∈ bs, same true (toJson a) (toJson b) = true → a = b)
    (h : same true (.array (as.map toJson)) (.array (bs.map toJson)) = true) : as = bs := by
  have hitems := sameItems_iff.1 h
  rw [List.forall₂_map_left_iff, List.forall₂_map_right_iff] at hitems
  exact eq_of_forall₂ hitems heq

end Json

/-! ## Rounds -/

namespace RoundResult

variable {r s : RoundResult}

/-- The length is the one field that may be left out. -/
theorem toJson_eq (r : RoundResult) :
    r.toJson = Json.omitEmpty ("md", .text r.md) [("outLen", .number r.outLen)] := by
  unfold toJson numberField Json.omitEmpty
  cases h : r.outLen.isZero <;> simp [Json.isEmpty, h]

theorem fieldOr?_md (r : RoundResult) :
    r.toJson.fieldOr? "md" (.text []) = some (.text r.md) := rfl

theorem fieldOr?_outLen (h : r.outLen.IsInt) :
    r.toJson.fieldOr? "outLen" (.int 0) = some (.number r.outLen) := by
  have hkey : ("md" : Text) ≠ "outLen" := by decide
  rw [toJson_eq]
  exact Json.fieldOr?_omitEmpty (List.nodup_singleton _) hkey rfl (Json.number_of_isEmpty h)

theorem ofJson?_toJson (h : r.outLen.IsInt) : ofJson? r.toJson = some r := by
  unfold ofJson?
  rw [fieldOr?_md, fieldOr?_outLen h]
  rfl

theorem keysOnce_toJson (r : RoundResult) : Json.KeysOnce r.toJson := by
  have hkeys : (["md", "outLen"] : List Text).Nodup := by decide
  rw [toJson_eq]
  refine Json.keysOnce_omitEmpty (.object hkeys ?_)
  rw [List.forall_mem_cons, List.forall_mem_singleton]
  exact ⟨.text _, .number _⟩

/-- Rounds that are written as equal objects are the same. -/
theorem eq_of_same_toJson (hr : r.outLen.IsInt) (hs : s.outLen.IsInt)
    (h : Json.same true r.toJson s.toJson = true) : r = s := by
  have hmd : Json.same true (.text r.md) (.text s.md) = true :=
    Json.same_fieldOr? r.keysOnce_toJson s.keysOnce_toJson h rfl r.fieldOr?_md s.fieldOr?_md
  have hlen : Json.same true (.number r.outLen) (.number s.outLen) = true :=
    Json.same_fieldOr? r.keysOnce_toJson s.keysOnce_toJson h rfl (fieldOr?_outLen hr)
      (fieldOr?_outLen hs)
  cases r
  cases s
  congr
  · exact Json.text_eq_of_same hmd
  · exact Json.number_eq_of_same hr hs hlen

end RoundResult

/-! ## Answers -/

namespace TestResponse

variable {r s : TestResponse}

/-- The fields of an answer that may be left out. -/
def optionalFields (r : TestResponse) : List (Text × Json) :=
  [("md", .text r.md), ("outLen", .number r.outLen),
    ("resultsArray", .array (r.rounds.map RoundResult.toJson))]

theorem nodup_optionalFields (r : TestResponse) : (r.optionalFields.map Prod.fst).Nodup :=
  r.nodup_keys.of_cons

theorem toJson_eq (r : TestResponse) :
    r.toJson = Json.omitEmpty ("tcId", .number r.tcId) r.optionalFields := by
  unfold toJson textField numberField Json.omitEmpty optionalFields
  cases hmd : r.md <;> cases hlen : r.outLen.isZero <;> cases hrounds : r.rounds <;>
    simp [Json.isEmpty, hlen]

theorem fieldOr?_toJson {key : Text} {v absent : Json} (hkey : "tcId" ≠ key)
    (hv : Json.lookup key r.optionalFields = some v) (hempty : v.isEmpty = true → v = absent) :
    r.toJson.fieldOr? key absent = some v := by
  rw [toJson_eq]
  exact Json.fieldOr?_omitEmpty r.nodup_optionalFields hkey hv hempty

theorem fieldOr?_md (r : TestResponse) :
    r.toJson.fieldOr? "md" (.text []) = some (.text r.md) :=
  fieldOr?_toJson (by decide) rfl Json.text_of_isEmpty

theorem fieldOr?_outLen (h : r.outLen.IsInt) :
    r.toJson.fieldOr? "outLen" (.int 0) = some (.number r.outLen) :=
  fieldOr?_toJson (by decide) rfl (Json.number_of_isEmpty h)

theorem fieldOr?_rounds (r : TestResponse) : r.toJson.fieldOr? "resultsArray" (.array []) =
    some (.array (r.rounds.map RoundResult.toJson)) :=
  fieldOr?_toJson (by decide) rfl Json.array_of_isEmpty

theorem ofJson?_toJson (h : r.HasIntegers) : ofJson? r.toJson = some r := by
  have hid : r.toJson.field? "tcId" = some (.number r.tcId) := rfl
  have hrounds : (r.rounds.map RoundResult.toJson).mapM RoundResult.ofJson? = some r.rounds :=
    mapM_map_eq_some fun round hround => RoundResult.ofJson?_toJson (h.rounds round hround)
  simp only [ofJson?, hid, fieldOr?_md, fieldOr?_outLen h.outLen, fieldOr?_rounds, hrounds,
    Json.number?, Json.text?, Json.items?, Option.bind_eq_bind, Option.bind_some, Option.pure_def]

/-- A length that is zero but no integer does not come back as it was. -/
example :
    let r : TestResponse := { tcId := .int 1, outLen := .float .negativeZero }
    ofJson? r.toJson = some { r with outLen := .int 0 } := by decide

theorem keysOnce_toJson (r : TestResponse) : Json.KeysOnce r.toJson := by
  rw [toJson_eq]
  refine Json.keysOnce_omitEmpty (.object r.nodup_keys ?_)
  unfold optionalFields
  rw [List.forall_mem_cons, List.forall_mem_cons, List.forall_mem_cons, List.forall_mem_singleton]
  exact ⟨.number _, .text _, .number _,
    .array (List.forall_mem_map.2 fun round _ => round.keysOnce_toJson)⟩

/-- Answers that are written as equal objects are the same. -/
theorem eq_of_same_toJson (hr : r.HasIntegers) (hs : s.HasIntegers)
    (h : Json.same true r.toJson s.toJson = true) : r = s := by
  have hid : Json.same true (.number r.tcId) (.number s.tcId) = true :=
    Json.same_field? "tcId" r.keysOnce_toJson s.keysOnce_toJson h rfl rfl
  have hmd : Json.same true (.text r.md) (.text s.md) = true :=
    Json.same_fieldOr? r.keysOnce_toJson s.keysOnce_toJson h rfl r.fieldOr?_md s.fieldOr?_md
  have hlen : Json.same true (.number r.outLen) (.number s.outLen) = true :=
    Json.same_fieldOr? r.keysOnce_toJson s.keysOnce_toJson h rfl (fieldOr?_outLen hr.outLen)
      (fieldOr?_outLen hs.outLen)
  have hrounds : Json.same true (.array (r.rounds.map RoundResult.toJson))
      (.array (s.rounds.map RoundResult.toJson)) = true :=
    Json.same_fieldOr? r.keysOnce_toJson s.keysOnce_toJson h rfl r.fieldOr?_rounds
      s.fieldOr?_rounds
  have heq : r.rounds = s.rounds := Json.eq_of_same_map (fun a ha b hb =>
    RoundResult.eq_of_same_toJson (hr.rounds a ha) (hs.rounds b hb)) hrounds
  cases r
  cases s
  congr
  · exact Json.number_eq_of_same hr.tcId hs.tcId hid
  · exact Json.text_eq_of_same hmd
  · exact Json.number_eq_of_same hr.outLen hs.outLen hlen

end TestResponse

/-! ## Groups -/

namespace GroupResponse

variable {g g' : GroupResponse}

theorem ofJson?_toJson (h : g.HasIntegers) : ofJson? g.toJson = some g := by
  have hid : g.toJson.field? "tgId" = some (.number g.tgId) := rfl
  have hitems : g.toJson.field? "tests" = some (.array (g.tests.map TestResponse.toJson)) := rfl
  have htests : (g.tests.map TestResponse.toJson).mapM TestResponse.ofJson? = some g.tests :=
    mapM_map_eq_some fun r hr => TestResponse.ofJson?_toJson (h.tests r hr)
  simp only [ofJson?, hid, hitems, htests, Json.number?, Json.items?, Option.bind_eq_bind,
    Option.bind_some, Option.pure_def]

theorem keysOnce_toJson (g : GroupResponse) : Json.KeysOnce g.toJson := by
  have hkeys : (["tgId", "tests"] : List Text).Nodup := by decide
  refine .object hkeys ?_
  rw [List.forall_mem_cons, List.forall_mem_singleton]
  exact ⟨.number _, .array (List.forall_mem_map.2 fun r _ => r.keysOnce_toJson)⟩

/-- Groups are written as equal objects only if they are the same. -/
theorem equal_toJson_iff (hg : g.HasIntegers) (hg' : g'.HasIntegers) :
    Json.equal g.toJson g'.toJson = true ↔ g = g' := by
  constructor
  · intro h
    have hid : Json.same true (.number g.tgId) (.number g'.tgId) = true :=
      Json.same_field? "tgId" g.keysOnce_toJson g'.keysOnce_toJson h rfl rfl
    have htests : Json.same true (.array (g.tests.map TestResponse.toJson))
        (.array (g'.tests.map TestResponse.toJson)) = true :=
      Json.same_field? "tests" g.keysOnce_toJson g'.keysOnce_toJson h rfl rfl
    have heq : g.tests = g'.tests := Json.eq_of_same_map (fun a ha b hb =>
      TestResponse.eq_of_same_toJson (hg.tests a ha) (hg'.tests b hb)) htests
    cases g
    cases g'
    congr
    exact Json.number_eq_of_same hg.tgId hg'.tgId hid
  · rintro rfl
    exact g.keysOnce_toJson.same_self

end GroupResponse

/-! ## Top theorem -/

namespace OpenGroup

variable {g : OpenGroup}

/-- A complete group has its answers in its slots and nothing else. -/
theorem filled_snapshot (h : g.missing = []) : g.snapshot.filled = g := by
  unfold GroupResponse.filled snapshot
  rw [← slots_of_complete h]

/-- **Nothing is lost.** A complete group comes back from its written form if the fields that are
not there are taken to be empty: the identifier and every answer in its slot. So two complete groups
are the same if and only if what is written of them is equal, whatever fields are left out. -/
theorem snapshot_lossless (hg : g.missing = []) (hints : g.snapshot.HasIntegers) :
    (GroupResponse.ofJson? g.snapshot.toJson).map GroupResponse.filled = some g ∧
    ∀ g' : OpenGroup, g'.missing = [] → g'.snapshot.HasIntegers →
      (Json.equal g.snapshot.toJson g'.snapshot.toJson = true ↔ g = g') := by
  constructor
  · rw [GroupResponse.ofJson?_toJson hints, Option.map_some, filled_snapshot hg]
  · intro g' hg' hints'
    rw [GroupResponse.equal_toJson_iff hints hints']
    constructor
    · intro h
      rw [← filled_snapshot hg, ← filled_snapshot hg', h]
    · rintro rfl
      rfl

/-- A test without a digest, one with a digest, and a chain whose rounds lack a digest, a length, or
both. -/
def sparse : OpenGroup where
  tgId := .int 0
  slots := [some { tcId := .int 1 }, some { tcId := .int 2, md := "ab", outLen := .int 8 },
    some { tcId := .int 3, rounds := [⟨[], .int 0⟩, ⟨"ab", .int 0⟩, ⟨[], .int 16⟩] }]

/-- The same with one round in the place of none. -/
def lessSparse : OpenGroup :=
  { sparse with slots := sparse.slots.set 0 (some { tcId := .int 1, rounds := [⟨[], .int 0⟩] }) }

/-- The group comes back, and no rounds are told from one empty round. -/
theorem snapshot_lossless_sparse : sparse.missing = [] ∧ sparse.snapshot.HasIntegers ∧
    (GroupResponse.ofJson? sparse.snapshot.toJson).map GroupResponse.filled = some sparse ∧
    lessSparse.missing = [] ∧ lessSparse.snapshot.HasIntegers ∧
    Json.equal sparse.snapshot.toJson lessSparse.snapshot.toJson = false := by
  have hsparse : sparse.snapshot.HasIntegers := by decide
  have hless : lessSparse.snapshot.HasIntegers := by decide
  have hlossless := snapshot_lossless (g := sparse) (by decide) hsparse
  refine ⟨by decide, hsparse, hlossless.1, by decide, hless, ?_⟩
  rw [← Bool.not_eq_true, hlossless.2 lessSparse (by decide) hless]
  decide

end OpenGroup

end XofConformance
