import XofConformance.Proofs.Comparison.Reflexive
import XofConformance.Proofs.Json.Keys

/-!
# Fields that a response lacks

A value that lacks a field of another one, at whatever depth, is not equal to it up to the case of
digests. So a round that lacks a digest is told, and so is a test without the output length that is
expected. The digest of a test is looked at by itself, and there one that is not there counts as the
text of null: it is told unless that text, in whatever case, is the digest that is expected.

    Lacks got expected → deepEqual got expected = false              (deepEqual_eq_false_of_lacks)
-/

namespace XofConformance

/-! ## Equal values -/

namespace Json

variable {inside : Bool} {key : Text} {xs ys : List Json} {fields present : List (Text × Json)}

theorem sameItems_iff :
    sameItems xs ys = true ↔ List.Forall₂ (fun x y => same true x y = true) xs ys := by
  induction xs generalizing ys with
  | nil => cases ys <;> simp [sameItems]
  | cons x xs ih => cases ys <;> simp [sameItems, ih]

theorem sameFields_iff : sameFields fields present = true ↔
    ∀ p ∈ fields, ∃ y, lookup p.1 present = some y ∧ same true p.2 y = true := by
  induction fields with
  | nil => exact iff_of_true rfl nofun
  | cons p rest ih =>
    rw [sameFields, Bool.and_eq_true, ih, List.forall_mem_cons]
    refine and_congr_left fun _ => ?_
    cases lookup p.1 present <;> simp

theorem same_object_iff : same inside (.object fields) (.object present) = true ↔
    fields.length = present.length ∧ sameFields fields present = true := by
  rw [same, Bool.and_eq_true, beq_iff_eq]

/-- An object that has each key once has every key of an object that it is equal to: it has no key
that the other one has not, and as many. -/
theorem isSome_lookup_of_same (h : same inside (.object fields) (.object present) = true)
    (hkeys : (fields.map Prod.fst).Nodup) (hkey : (lookup key present).isSome = true) :
    (lookup key fields).isSome = true := by
  obtain ⟨hlength, hfields⟩ := same_object_iff.1 h
  rw [isSome_lookup_iff] at hkey ⊢
  have hsub : fields.map Prod.fst ⊆ present.map Prod.fst := by
    rw [List.subset_def, List.forall_mem_map]
    intro p hp
    obtain ⟨y, hy, -⟩ := sameFields_iff.1 hfields p hp
    rw [← isSome_lookup_iff, hy]
    rfl
  have hle : (present.map Prod.fst).length ≤ (fields.map Prod.fst).length := by
    rw [List.length_map, List.length_map]
    exact Nat.le_of_eq hlength.symm
  exact ((List.subperm_of_subset hkeys hsub).perm_of_length_le hle).mem_iff.2 hkey

end Json

namespace Comparison

open Json (KeysOnce lookup same)

variable {got expected : Json} {key : Text}

/-! ## Lacking -/

/-- In some place where the expected value has a field, the other one has none. The places within a
digest do not count. -/
inductive Lacks : Json → Json → Prop
  | here {got expected : Json} {key : Text} (hexpected : (expected.field? key).isSome = true)
      (hgot : got.field? key = none) : Lacks got expected
  | item {gs es : List Json} {got expected : Json} {i : Nat} (hgot : gs[i]? = some got)
      (hexpected : es[i]? = some expected) (h : Lacks got expected) : Lacks (.array gs) (.array es)
  | field {got expected g e : Json} {key : Text} (hkey : key ≠ digestKey)
      (hgot : got.field? key = some g) (hexpected : expected.field? key = some e)
      (h : Lacks g e) : Lacks got expected

/-- What stands under a key is normal, or the text of a digest. -/
theorem lookup_normalFields (fields : List (Text × Json)) : lookup key (normalFields fields) =
    (lookup key fields).map fun v =>
      if key = digestKey then .text (Text.lower v.shown) else normal v := by
  induction fields with
  | nil => rfl
  | cons p rest ih =>
    rw [normalFields, lookup, lookup, ih]
    by_cases hk : p.1 = key
    · rw [if_pos hk, if_pos hk, hk]
      rfl
    · rw [if_neg hk, if_neg hk]

theorem exists_object_of_field? {v w : Json} (h : v.field? key = some w) :
    ∃ fields, v = .object fields ∧ lookup key fields = some w := by
  cases v with
  | object fields => exact ⟨fields, rfl, h⟩
  | _ => cases h

theorem same_normal_eq_false_of_lacks (h : Lacks got expected) (hgot : KeysOnce got)
    (inside : Bool) : same inside (normal got) (normal expected) = false := by
  rw [Bool.eq_false_iff]
  -- Below the top, values are compared as items of others, so the induction is over both ways.
  induction h generalizing inside with
  | here hexpected hlacks =>
    obtain ⟨e, he⟩ := Option.isSome_iff_exists.1 hexpected
    obtain ⟨es, rfl, hes⟩ := exists_object_of_field? he
    cases hgot with
    | @object gs hkeys _ =>
      intro hsame
      rw [← keys_normalFields] at hkeys
      have hkey := Json.isSome_lookup_of_same hsame hkeys (by rw [lookup_normalFields, hes]; rfl)
      have hnone : lookup _ gs = none := hlacks
      rw [lookup_normalFields, hnone] at hkey
      cases hkey
    | _ => exact nofun
  | @item gs es g e i hg he _ ih =>
    cases hgot with
    | array hgs =>
      intro hsame
      rw [normal, normal, normalItems_eq, normalItems_eq] at hsame
      refine ih (hgs g (List.mem_of_getElem? hg)) true ?_
      have hnormal : ∀ {items : List Json} {v}, items[i]? = some v →
          (items.map normal)[i]? = some (normal v) := by
        intro items v hv
        rw [List.getElem?_map, hv]
        rfl
      have hequal := of_forall₂_getElem? (Json.sameItems_iff.1 hsame) (hnormal hg) (hnormal he)
      exact hequal
  | @field got expected g e key hkey hg he _ ih =>
    obtain ⟨gs, rfl, hgs⟩ := exists_object_of_field? hg
    obtain ⟨es, rfl, hes⟩ := exists_object_of_field? he
    cases hgot with
    | object _ hvalues =>
      intro hsame
      have hnormal : ∀ {fields v}, lookup key fields = some v →
          lookup key (normalFields fields) = some (normal v) := by
        intro fields v hv
        rw [lookup_normalFields, hv, Option.map_some, if_neg hkey]
      obtain ⟨y, hy, hsame⟩ := Json.sameFields_iff.1 (Json.same_object_iff.1 hsame).2 _
        (Json.mem_of_lookup_eq_some (hnormal hgs))
      rw [hnormal hes] at hy
      cases hy
      exact ih (hvalues _ (Json.mem_of_lookup_eq_some hgs)) true hsame

/-- A value that lacks a field is not equal to the one that has it. -/
theorem deepEqual_eq_false_of_lacks (h : Lacks got expected) (hgot : KeysOnce got) :
    deepEqual got expected = false := same_normal_eq_false_of_lacks h hgot false

/-! ## Tests -/

theorem field_of_lacks {v : Json} (h : v.field? key = none) : v.field key = .null := by
  unfold Json.field
  rw [h]
  rfl

theorem compareTest_without_rounds (h : expected.field "resultsArray" = .null) :
    compareTest got expected = .ok (compareFields got expected [digestKey, "outLen"]) := by
  unfold compareTest
  rw [h]

theorem compareFields_cons {keys : List Text} {e : Json} (he : expected.field? key = some e) :
    compareFields got expected (key :: keys) =
      if deepEqual (.object [(key, got.field key)]) (.object [(key, e)]) = true then
        compareFields got expected keys
      else some (.field key) := by
  unfold compareFields
  rw [List.find?_cons, he]
  dsimp only
  split <;> simp_all

/-- A digest that is not there is told, unless the one that is expected is the text of null. -/
theorem compareFields_lacking_digest {keys : List Text} {d : Text}
    (hd : expected.field? digestKey = some (.text d)) (hgot : got.field? digestKey = none) :
    compareFields got expected (digestKey :: keys) =
      if Text.lower d = "none" then compareFields got expected keys
      else some (.field digestKey) := by
  have hequal : deepEqual (.object [(digestKey, got.field digestKey)])
      (.object [(digestKey, .text d)]) = true ↔ Text.lower d = "none" := by
    rw [deepEqual_digest, field_of_lacks hgot, eq_comm]
    exact Iff.rfl
  rw [compareFields_cons hd]
  simp only [hequal]

/-- A round that lacks a field is told, whichever round there is in its place, or none. -/
theorem compareTest_lacking_round {es : List Json} {i : Nat} {e : Json} (hgot : KeysOnce got)
    (hes : expected.field? "resultsArray" = some (.array es)) (he : es[i]? = some e)
    (hlacks : ∀ gs g, got.field "resultsArray" = .array gs → gs[i]? = some g → Lacks g e) :
    ∃ m, compareTest got expected = .ok (some m) := by
  have hrounds : ∀ v, expected.field? "resultsArray" = some v → ∃ es, v = .array es :=
    fun v hv => ⟨es, Option.some.inj (hv.symm.trans hes)⟩
  obtain ⟨m, hm, hnone⟩ := compareTest_spec got hrounds
  cases m with
  | some m => exact ⟨m, hm⟩
  | none =>
    have hagrees := hnone.1 rfl
    unfold Agrees at hagrees
    rw [hes] at hagrees
    obtain ⟨gs, es', hgs, hes', hall⟩ := hagrees
    cases hes'
    have hi : i < gs.length := by
      rw [hall.length_eq]
      exact (List.getElem?_eq_some_iff.1 he).1
    have hg : gs[i]? = some gs[i] := List.getElem?_eq_getElem hi
    have honce : KeysOnce gs[i] := by
      have hrounds : KeysOnce (.array gs) := hgs ▸ hgot.field
      cases hrounds with
      | array hitems => exact hitems _ (List.getElem_mem hi)
    have hequal := of_forall₂_getElem? hall hg he
    rw [deepEqual_eq_false_of_lacks (hlacks gs _ hgs hg) honce] at hequal
    cases hequal

/-- **What is lacking.** For a test without rounds: a digest that is expected and not there is told
exactly if it is not the text of null, and an output length that is expected and not there is told,
as it is or behind a digest that differs. For a test with rounds: a field that an expected round has
is told if the round in its place lacks it, at whatever depth, or if there is none. -/
theorem compareTest_lacking (got expected : Json) :
    (expected.field "resultsArray" = .null →
      (∀ d, expected.field? "md" = some (.text d) → got.field? "md" = none →
        compareTest got expected = .ok (if Text.lower d = "none" then
          compareFields got expected ["outLen"] else some (.field "md"))) ∧
      ∀ n, expected.field? "outLen" = some (.number n) → got.field? "outLen" = none →
        ∃ m, compareTest got expected = .ok (some m)) ∧
    ∀ (es : List Json) (i : Nat) e, expected.field? "resultsArray" = some (.array es) → es[i]? = some e →
      got.KeysOnce →
      (∀ gs g, got.field "resultsArray" = .array gs → gs[i]? = some g → Lacks g e) →
      ∃ m, compareTest got expected = .ok (some m) := by
  refine ⟨fun hbare => ⟨fun d hd hgot => ?_, fun n hn hgot => ?_⟩,
    fun es i e hes he hgot => compareTest_lacking_round hgot hes he⟩
  · rw [compareTest_without_rounds hbare, compareFields_lacking_digest hd hgot]
    rfl
  · rw [compareTest_without_rounds hbare]
    cases hfields : compareFields got expected [digestKey, "outLen"] with
    | some m => exact ⟨m, rfl⟩
    | none =>
      have houtLen := compareFields_eq_none_iff.1 hfields "outLen" (by simp) _ hn
      rw [field_of_lacks hgot] at houtLen
      cases houtLen

/-- A digest that is not there, an output length that is not there, and a round with as many fields
as the expected one and another name for its digest. -/
theorem compareTest_lacking_each :
    compareTest (.object [("tcId", .int 1)]) (.object [("tcId", .int 1), ("md", .text "00")]) =
      .ok (some (.field "md")) ∧
    (∃ m, compareTest (.object [("tcId", .int 1)])
      (.object [("outLen", .int 8), ("resultsArray", .null)]) = .ok (some m)) ∧
    ∃ m, compareTest (.object [("resultsArray", .array [.object [("digest", .text "00")]])])
      (.object [("resultsArray", .array [.object [("md", .text "00")]])]) = .ok (some m) := by
  refine ⟨((compareTest_lacking _ _).1 rfl).1 "00" rfl rfl,
    ((compareTest_lacking _ _).1 rfl).2 (.int 8) rfl rfl,
    (compareTest_lacking _ _).2 _ 0 _ rfl rfl ?_ ?_⟩
  · refine .object (List.nodup_singleton _) (List.forall_mem_singleton.2 (.array ?_))
    exact List.forall_mem_singleton.2
      (.object (List.nodup_singleton _) (List.forall_mem_singleton.2 (.text _)))
  · intro gs g hgs hg
    cases hgs
    cases hg
    have hexpected : ((Json.object [("md", .text "00")]).field? "md").isSome = true := rfl
    exact .here hexpected rfl

/-- A digest that is not there passes for one that is expected to be the text of null. -/
theorem not_forall_lacking_told : ¬ ∀ (got expected : Json) (d : Text),
    expected.field "resultsArray" = .null → expected.field? "md" = some (.text d) →
    got.field? "md" = none → ∃ m, compareTest got expected = .ok (some m) := by
  intro h
  obtain ⟨m, hm⟩ := h (.object [("tcId", .int 1)])
    (.object [("tcId", .int 1), ("md", .text "None")]) "None" rfl rfl rfl
  cases hm

end Comparison

end XofConformance
