import Mathlib.Data.List.Perm.Subperm
import XofConformance.Proofs.Json.RoundTrip
import XofConformance.Proofs.Lists

/-!
# Keys that stand once

Values in which no object has a key twice. What is read from a text is such a value, since a key
that is written again replaces what stood under it.

    read t = .ok v → v.KeysOnce                                             (keysOnce_of_read)
-/

namespace XofConformance.Json

/-- No object in the value has a key twice. -/
inductive KeysOnce : Json → Prop
  | null : KeysOnce .null
  | bool (b : Bool) : KeysOnce (.bool b)
  | number (n : Number) : KeysOnce (.number n)
  | text (t : Text) : KeysOnce (.text t)
  | array {items : List Json} (h : ∀ v ∈ items, KeysOnce v) : KeysOnce (.array items)
  | object {fields : List (Text × Json)} (hkeys : (fields.map Prod.fst).Nodup)
      (h : ∀ p ∈ fields, KeysOnce p.2) : KeysOnce (.object fields)

variable {v : Json} {t key : Text} {fields pairs : List (Text × Json)}

theorem isSome_lookup_iff : (lookup key fields).isSome = true ↔ key ∈ fields.map Prod.fst := by
  induction fields with
  | nil => exact iff_of_false nofun List.not_mem_nil
  | cons p rest ih =>
    rw [lookup, List.map_cons, List.mem_cons, eq_comm (a := key)]
    by_cases hk : p.1 = key
    · rw [if_pos hk]
      exact iff_of_true rfl (.inl hk)
    · rw [if_neg hk, ih]
      exact ⟨.inr, fun h => h.resolve_left hk⟩

theorem mem_of_lookup_eq_some (h : lookup key fields = some v) : (key, v) ∈ fields := by
  induction fields with
  | nil => cases h
  | cons p rest ih =>
    rw [lookup] at h
    split at h
    · next hk =>
      cases h
      rw [← hk]
      exact List.mem_cons_self
    · exact List.mem_cons_of_mem _ (ih h)

theorem KeysOnce.field (h : KeysOnce v) : KeysOnce (v.field key) := by
  unfold Json.field
  cases hfield : v.field? key with
  | none => exact .null
  | some w =>
    cases h with
    | object _ hfields => exact hfields _ (mem_of_lookup_eq_some hfield)
    | _ => cases hfield

/-! ## Writing a key again -/

theorem mem_insert {p : Text × Json} (h : p ∈ insert key v fields) :
    p = (key, v) ∨ p ∈ fields := by
  induction fields with
  | nil => exact .inl (List.mem_singleton.1 h)
  | cons q rest ih =>
    rw [insert] at h
    split at h
    · next hk =>
      rw [hk] at h
      exact (List.mem_cons.1 h).imp_right (List.mem_cons_of_mem _)
    · rcases List.mem_cons.1 h with rfl | h
      · exact .inr List.mem_cons_self
      · exact (ih h).imp_right (List.mem_cons_of_mem _)

theorem nodup_keys_insert (h : (fields.map Prod.fst).Nodup) :
    ((insert key v fields).map Prod.fst).Nodup := by
  induction fields with
  | nil => exact List.nodup_singleton _
  | cons q rest ih =>
    rw [List.map_cons, List.nodup_cons] at h
    rw [insert]
    split
    · rw [List.map_cons, List.nodup_cons]
      exact h
    · next hk =>
      rw [List.map_cons, List.nodup_cons]
      refine ⟨fun hmem => ?_, ih h.2⟩
      obtain ⟨p, hp, hpq⟩ := List.mem_map.1 hmem
      rcases mem_insert hp with rfl | hp
      · exact hk hpq.symm
      · exact h.1 (List.mem_map.2 ⟨p, hp, hpq⟩)

/-- Whatever the keys that are written, in the object each stands once. -/
theorem keysOnce_fieldsOf (h : ∀ p ∈ pairs, KeysOnce p.2) : KeysOnce (.object (fieldsOf pairs)) := by
  have hfold : ∀ fields : List (Text × Json), KeysOnce (.object fields) →
      KeysOnce (.object (pairs.foldl (fun fields p => insert p.1 p.2 fields) fields)) := by
    induction pairs with
    | nil => exact fun _ hfields => hfields
    | cons p rest ih =>
      obtain ⟨hp, hrest⟩ := List.forall_mem_cons.1 h
      rintro fields (_ | _ | _ | _ | _ | ⟨hkeys, hfields⟩)
      refine ih hrest _ (.object (nodup_keys_insert hkeys) fun q hq => ?_)
      rcases mem_insert hq with rfl | hq
      · exact hp
      · exact hfields q hq
  exact hfold [] (.object List.nodup_nil (List.forall_mem_nil _))

/-! ## Reading -/

theorem keysOnce_of_readWord? {found : Json × Text} (h : readWord? t = some found) :
    KeysOnce found.1 := by
  have hwords : ∀ w ∈ words, KeysOnce w.2 := by
    simp only [words, List.forall_mem_cons]
    exact ⟨.null, .bool _, .bool _, .number _, .number _, .number _, List.forall_mem_nil _⟩
  obtain ⟨w, hw, hfound⟩ := List.exists_of_findSome?_eq_some h
  obtain ⟨rest, -, rfl⟩ := Option.map_eq_some_iff.1 hfound
  exact hwords w hw

/-- What the steps of a reading of some length give. -/
structure ReadsKeysOnce (fuel : Nat) : Prop where
  value : ∀ {t v rest}, readValue fuel t = .ok (v, rest) → KeysOnce v
  items : ∀ {t vs rest}, readItems fuel t = .ok (vs, rest) → ∀ v ∈ vs, KeysOnce v
  fields : ∀ {t ps rest}, readFields fuel t = .ok (ps, rest) → ∀ p ∈ ps, KeysOnce p.2

theorem keysOnce_of_readValue_succ {fuel : Nat} {rest : Text} (ih : ReadsKeysOnce fuel)
    (h : readValue (fuel + 1) t = .ok (v, rest)) : KeysOnce v := by
  cases t with
  | nil => cases h
  | cons c t =>
    rw [readValue] at h
    split at h
    · obtain ⟨⟨s, rest'⟩, -, h⟩ := exists_of_bind_eq_ok h
      cases h
      exact .text s
    split at h
    · split at h
      · cases h
        exact .object List.nodup_nil (List.forall_mem_nil _)
      · obtain ⟨⟨pairs, rest'⟩, hpairs, h⟩ := exists_of_bind_eq_ok h
        cases h
        exact keysOnce_fieldsOf (ih.fields hpairs)
    split at h
    · split at h
      · cases h
        exact .array (List.forall_mem_nil _)
      · obtain ⟨⟨items, rest'⟩, hitems, h⟩ := exists_of_bind_eq_ok h
        cases h
        exact .array (ih.items hitems)
    split at h
    · next found hfound =>
      cases h
      exact keysOnce_of_readWord? hfound
    · split at h
      · cases h
        exact .number _
      · cases h

theorem keysOnce_of_readItems_succ {fuel : Nat} {vs : List Json} {rest : Text}
    (ih : ReadsKeysOnce fuel) (h : readItems (fuel + 1) t = .ok (vs, rest)) :
    ∀ v ∈ vs, KeysOnce v := by
  rw [readItems] at h
  obtain ⟨⟨v, rest'⟩, hv, h⟩ := exists_of_bind_eq_ok h
  dsimp only at h
  split at h
  · cases h
    exact List.forall_mem_singleton.2 (ih.value hv)
  · obtain ⟨rest'', -, h⟩ := exists_of_bind_eq_ok h
    obtain ⟨⟨vs', rest₃⟩, hvs, h⟩ := exists_of_bind_eq_ok h
    cases h
    exact List.forall_mem_cons.2 ⟨ih.value hv, ih.items hvs⟩

theorem keysOnce_of_readFields_succ {fuel : Nat} {ps : List (Text × Json)} {rest : Text}
    (ih : ReadsKeysOnce fuel) (h : readFields (fuel + 1) t = .ok (ps, rest)) :
    ∀ p ∈ ps, KeysOnce p.2 := by
  rw [readFields] at h
  obtain ⟨t₁, -, h⟩ := exists_of_bind_eq_ok h
  obtain ⟨⟨key, t₂⟩, -, h⟩ := exists_of_bind_eq_ok h
  obtain ⟨t₃, -, h⟩ := exists_of_bind_eq_ok h
  obtain ⟨⟨v, t₄⟩, hv, h⟩ := exists_of_bind_eq_ok h
  dsimp only at h
  split at h
  · cases h
    exact List.forall_mem_singleton.2 (ih.value hv)
  · obtain ⟨t₅, -, h⟩ := exists_of_bind_eq_ok h
    obtain ⟨⟨ps', t₆⟩, hps, h⟩ := exists_of_bind_eq_ok h
    cases h
    exact List.forall_mem_cons.2 ⟨ih.value hv, ih.fields hps⟩

theorem readsKeysOnce (fuel : Nat) : ReadsKeysOnce fuel := by
  induction fuel with
  | zero => exact ⟨nofun, nofun, nofun⟩
  | succ fuel ih =>
    exact ⟨keysOnce_of_readValue_succ ih, keysOnce_of_readItems_succ ih,
      keysOnce_of_readFields_succ ih⟩

/-- A value that is read has each key once. -/
theorem keysOnce_of_read (h : read t = .ok v) : KeysOnce v := by
  have hdocument : readDocument t = .ok v := by
    unfold read at h
    split at h
    · next w hw =>
      cases h
      exact hw
    · cases h
  unfold readDocument at hdocument
  split at hdocument
  · cases hdocument
  · obtain ⟨⟨w, rest⟩, hw, h⟩ := exists_of_bind_eq_ok hdocument
    dsimp only at h
    split at h
    · cases h
      exact (readsKeysOnce _).value hw
    · cases h

end XofConformance.Json
