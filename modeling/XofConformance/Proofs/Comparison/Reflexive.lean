import XofConformance.Proofs.Comparison.Agreement
import XofConformance.Proofs.Json.Files
import XofConformance.Proofs.Json.Keys

/-!
# Values compared with themselves

A value in which no object has a key twice is equal to itself inside other values, and stays so if
its digests are taken in lower case; a NaN that stands alone is the one value that is not. So a test
agrees with every test that has the same fields, in whatever order.

    Definite v → deepEqual v v = true                                       (deepEqual_refl)
    the same fields under the same keys → Agrees actual expected      (agrees_of_field?_eq)
-/

namespace XofConformance

namespace Json

variable {v : Json} {items : List Json} {fields present : List (Text × Json)}

theorem sameItems_self (h : ∀ v ∈ items, same true v v = true) : sameItems items items = true := by
  induction items with
  | nil => rfl
  | cons v rest ih =>
    obtain ⟨hv, hrest⟩ := List.forall_mem_cons.1 h
    rw [sameItems, hv, ih hrest]
    rfl

/-- Fields that are among others have equal values there if every value is equal to itself. -/
theorem sameFields_of_subset (hkeys : (present.map Prod.fst).Nodup) (hsub : fields ⊆ present)
    (h : ∀ p ∈ present, same true p.2 p.2 = true) : sameFields fields present = true := by
  induction fields with
  | nil => rfl
  | cons p rest ih =>
    obtain ⟨hp, hrest⟩ := List.cons_subset.1 hsub
    have hlookup : lookup p.1 present = some p.2 := (lookup_eq_some_iff hkeys).2 hp
    rw [sameFields, hlookup, ih hrest, Bool.and_true]
    exact h p hp

/-- A value in which no object has a key twice is equal to itself inside another one. -/
theorem KeysOnce.same_self (h : KeysOnce v) : same true v v = true := by
  induction h with
  | null => exact sameKey_refl rfl
  | bool b => exact sameKey_refl rfl
  | number n => exact sameKey_refl rfl
  | text t => exact sameKey_refl rfl
  | array _ ih => exact sameItems_self ih
  | @object fields hkeys _ ih =>
    have hfields := sameFields_of_subset hkeys (List.Subset.refl _) ih
    show (fields.length == fields.length && sameFields fields fields) = true
    rw [hfields, beq_self_eq_true]
    rfl

/-- No number in the value is a NaN. -/
inductive NaNFree : Json → Prop
  | null : NaNFree .null
  | bool (b : Bool) : NaNFree (.bool b)
  | number {n : Number} (h : n.worth ≠ .nan) : NaNFree (.number n)
  | text (t : Text) : NaNFree (.text t)
  | array {items : List Json} (h : ∀ v ∈ items, NaNFree v) : NaNFree (.array items)
  | object {fields : List (Text × Json)} (h : ∀ p ∈ fields, NaNFree p.2) : NaNFree (.object fields)

/-- No object in the value has a key twice, and no number in it is a NaN. -/
structure Definite (v : Json) : Prop where
  keysOnce : v.KeysOnce
  nanFree : v.NaNFree

/-- What can be written and read back is definite. -/
theorem Writable.definite (h : Writable v) : Definite v := by
  induction h with
  | null => exact ⟨.null, .null⟩
  | bool b => exact ⟨.bool b, .bool b⟩
  | int i => exact ⟨.number _, .number nofun⟩
  | text t => exact ⟨.text t, .text t⟩
  | array _ ih => exact ⟨.array fun v hv => (ih v hv).keysOnce, .array fun v hv => (ih v hv).nanFree⟩
  | object hkeys _ _ ih =>
    exact ⟨.object hkeys fun p hp => (ih p hp).keysOnce, .object fun p hp => (ih p hp).nanFree⟩

/-- A number that is no NaN is equal to the same values alone and inside others. -/
theorem same_eq_of_numeric? {a b : Json} {m : Number} (ha : a.numeric? = some m)
    (hm : m.worth ≠ .nan) : same false a b = same true a b := by
  have hnumber : ∀ n, sameNumber false m n = sameNumber true m n := by
    intro n
    unfold sameNumber Number.equal
    rw [bne_iff_ne.2 hm, Bool.and_true]
    rfl
  cases a with
  | bool x =>
    cases ha
    cases b <;> first | rfl | exact hnumber _
  | number n =>
    cases ha
    cases b <;> first | rfl | exact hnumber _
  | _ => cases ha

end Json

namespace Comparison

open Json (KeysOnce NaNFree Definite Writable same)

variable {a b v actual expected : Json}

theorem normalItems_eq (items : List Json) : normalItems items = items.map normal := by
  induction items with
  | nil => rfl
  | cons v rest ih => rw [normalItems, ih, List.map_cons]

theorem normalFields_eq (fields : List (Text × Json)) :
    normalFields fields = fields.map fun p =>
      (p.1, if p.1 = digestKey then .text (Text.lower p.2.shown) else normal p.2) := by
  induction fields with
  | nil => rfl
  | cons p rest ih => rw [normalFields, ih, List.map_cons]

theorem keys_normalFields (fields : List (Text × Json)) :
    (normalFields fields).map Prod.fst = fields.map Prod.fst := by
  rw [normalFields_eq, List.map_map]
  rfl

theorem keysOnce_normal (h : KeysOnce v) : KeysOnce (normal v) := by
  induction h with
  | null => exact .null
  | bool b => exact .bool b
  | number n => exact .number n
  | text t => exact .text t
  | @array items _ ih =>
    rw [normal, normalItems_eq]
    exact .array (List.forall_mem_map.2 ih)
  | @object fields hkeys _ ih =>
    rw [normal]
    refine .object (by rwa [keys_normalFields]) ?_
    rw [normalFields_eq]
    refine List.forall_mem_map.2 fun p hp => ?_
    show KeysOnce (if p.1 = digestKey then _ else _)
    split
    · exact .text _
    · exact ih p hp

/-- A value without a NaN is compared as it would be inside another one. -/
theorem deepEqual_eq_same (h : NaNFree a) : deepEqual a b = same true (normal a) (normal b) := by
  show same false (normal a) (normal b) = _
  cases h with
  | number h => exact Json.same_eq_of_numeric? rfl h
  | bool b => exact Json.same_eq_of_numeric? rfl nofun
  | _ => rfl

theorem deepEqual_refl (h : Definite a) : deepEqual a a = true := by
  rw [deepEqual_eq_same h.nanFree]
  exact (keysOnce_normal h.keysOnce).same_self

theorem deepEqual_self (h : Writable v) : deepEqual v v = true := deepEqual_refl h.definite

theorem writable_of_field? {key : Text} {w : Json} (h : Writable v) (hw : v.field? key = some w) :
    Writable w := by
  cases h with
  | object hkeys _ hfields => exact hfields _ ((Json.lookup_eq_some_iff hkeys).1 hw)
  | _ => cases hw

/-- A test agrees with a test that has the same fields. -/
theorem agrees_of_field?_eq (h : Writable actual)
    (hrounds : ∀ v, actual.field? "resultsArray" = some v → ∃ es, v = .array es)
    (hfields : ∀ key, expected.field? key = actual.field? key) : Agrees actual expected := by
  unfold Agrees
  rw [hfields]
  cases hfield : actual.field? "resultsArray" with
  | some v =>
    obtain ⟨es, rfl⟩ := hrounds v hfield
    refine ⟨es, es, field_of_field? hfield, rfl, List.forall₂_same.2 fun e he => ?_⟩
    cases writable_of_field? h hfield with
    | array hes => exact deepEqual_self (hes e he)
  | none =>
    refine ⟨fun md hmd => ?_, fun n hn => ?_⟩
    · rw [hfields] at hmd
      rw [field_of_field? hmd]
    · rw [hfields] at hn
      rw [field_of_field? hn]
      exact deepEqual_self (.object_singleton (by decide) (writable_of_field? h hn))

end Comparison

end XofConformance
