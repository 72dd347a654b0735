import Mathlib.Data.List.Perm.Basic
import XofConformance.Proofs.Json.RoundTrip
import XofConformance.VectorSet.Document

/-!
# Reading a written file

A file has the keys of every object in order and ends with a line feed. It is ASCII, so its bytes
are read as its text, and what it holds is read back; the value that comes back has the same fields
under the same keys, and the same items in the same places.

    Writable v → (Document.bytes (fileText v)).load = .ok v.stored              (load_fileText)
    v.stored.field? key = (v.field? key).map stored                            (field?_stored)
-/

namespace XofConformance

/-! ## ASCII -/

namespace Text

variable {t : Text}

theorem utf8Char_of_lt {c : CodePoint} (hc : c < 0x80) : utf8Char c = [UInt8.ofNat c] := by
  unfold utf8Char
  rw [if_pos hc]
  rfl

theorem readUtf8_of_lt {c : CodePoint} (hc : c < 0x80) (position : Nat) (rest : Bytes) :
    readUtf8 position none (UInt8.ofNat c :: rest) =
      (readUtf8 (position + 1) none rest).map (c :: ·) := by
  have hvalue : (UInt8.ofNat c).toNat = c := by
    rw [UInt8.toNat_ofNat']
    exact Nat.mod_eq_of_lt (Nat.lt_trans hc (by decide))
  have hlead : lead (UInt8.ofNat c).toNat = .whole c := by
    rw [hvalue]
    exact if_pos hc
  rw [readUtf8, hlead]
  rfl

theorem isScalar_of_lt {c : CodePoint} (hc : c < 0x80) : IsScalar c :=
  ⟨Nat.lt_trans hc (by decide),
    fun hs => absurd hc (Nat.not_lt.2 (Nat.le_trans (by decide) hs.1))⟩

/-- A text in ASCII has one byte for each code point, and is read from them. -/
theorem exists_ofUtf8_of_ascii (h : ∀ c ∈ t, c < 0x80) :
    ∃ b, t.toUtf8? = some b ∧ ofUtf8 b = .ok t := by
  have hscalar : (t.all fun c => decide (IsScalar c)) = true :=
    List.all_eq_true.2 fun c hc => decide_eq_true (isScalar_of_lt (h c hc))
  refine ⟨t.flatMap utf8Char, if_pos hscalar, ?_⟩
  have hread : ∀ position, readUtf8 position none (t.flatMap utf8Char) = .ok t := by
    clear hscalar
    induction t with
    | nil => exact fun _ => rfl
    | cons c rest ih =>
      intro position
      obtain ⟨hc, hrest⟩ := List.forall_mem_cons.1 h
      rw [List.flatMap_cons, utf8Char_of_lt hc]
      show readUtf8 position none (UInt8.ofNat c :: rest.flatMap utf8Char) = _
      rw [readUtf8_of_lt hc, ih hrest]
      rfl
  exact hread 0

end Text

namespace Json

variable {v : Json} {items : List Json} {fields : List (Text × Json)} {key : Text}

/-! ## Key order -/

theorem sortKeysItems_eq (items : List Json) : sortKeysItems items = items.map sortKeys := by
  induction items with
  | nil => rfl
  | cons v rest ih => rw [sortKeysItems, ih, List.map_cons]

theorem sortKeysFields_eq (fields : List (Text × Json)) :
    sortKeysFields fields = fields.map fun p => (p.1, sortKeys p.2) := by
  induction fields with
  | nil => rfl
  | cons p rest ih => rw [sortKeysFields, ih, List.map_cons]

/-- Fields in the order of their keys. -/
def inOrder (fields : List (Text × Json)) : List (Text × Json) :=
  fields.mergeSort fun a b => !Text.precedes b.1 a.1

theorem inOrder_perm (fields : List (Text × Json)) : (inOrder fields).Perm fields :=
  List.mergeSort_perm _ _

theorem sortKeys_object : sortKeys (.object fields) =
    .object (inOrder (fields.map fun p => (p.1, sortKeys p.2))) := by
  rw [← sortKeysFields_eq]
  rfl

theorem sortKeys_array : sortKeys (.array items) = .array (items.map sortKeys) := by
  rw [← sortKeysItems_eq]
  rfl

theorem Writable.sortKeys (h : Writable v) : Writable v.sortKeys := by
  induction h with
  | null => exact .null
  | bool b => exact .bool b
  | int i => exact .int i
  | text t => exact .text t
  | @array items _ ih =>
    rw [sortKeys_array]
    exact .array (List.forall_mem_map.2 ih)
  | @object fields hkeys hscalar _ ih =>
    have hperm := inOrder_perm (fields.map fun p => (p.1, p.2.sortKeys))
    rw [sortKeys_object]
    refine .object ?_ (fun p hp => ?_) fun p hp => ?_
    · rw [(hperm.map _).nodup_iff, List.map_map]
      exact hkeys
    · obtain ⟨q, hq, rfl⟩ := List.mem_map.1 (hperm.mem_iff.1 hp)
      exact hscalar q hq
    · obtain ⟨q, hq, rfl⟩ := List.mem_map.1 (hperm.mem_iff.1 hp)
      exact ih q hq

/-! ## Lookups -/

theorem lookup_eq_some_iff (h : (fields.map Prod.fst).Nodup) :
    lookup key fields = some v ↔ (key, v) ∈ fields := by
  induction fields with
  | nil => exact iff_of_false nofun List.not_mem_nil
  | cons p rest ih =>
    obtain ⟨k, w⟩ := p
    rw [List.map_cons, List.nodup_cons] at h
    rw [lookup, List.mem_cons, Prod.mk.injEq]
    by_cases hk : k = key
    · subst hk
      have hrest : (k, v) ∉ rest := fun hm => h.1 (List.mem_map.2 ⟨_, hm, rfl⟩)
      rw [if_pos rfl, Option.some_inj]
      exact ⟨fun hv => Or.inl ⟨rfl, hv.symm⟩, fun hm => (hm.resolve_right hrest).2.symm⟩
    · rw [if_neg hk, ih h.2]
      exact ⟨Or.inr, fun hm => hm.resolve_left fun he => hk he.1.symm⟩

/-- What stands under a key does not depend on the order of the fields. -/
theorem lookup_perm {fields' : List (Text × Json)} (hperm : fields.Perm fields')
    (h : (fields.map Prod.fst).Nodup) : lookup key fields = lookup key fields' := by
  ext v
  rw [lookup_eq_some_iff h, lookup_eq_some_iff ((hperm.map _).nodup_iff.1 h), hperm.mem_iff]

theorem lookup_map (f : Json → Json) :
    lookup key (fields.map fun p => (p.1, f p.2)) = (lookup key fields).map f := by
  induction fields with
  | nil => rfl
  | cons p rest ih =>
    rw [List.map_cons, lookup, lookup, ih]
    split <;> rfl

theorem lookup_append {fields' : List (Text × Json)} :
    lookup key (fields ++ fields') = (lookup key fields).or (lookup key fields') := by
  induction fields with
  | nil => rfl
  | cons p rest ih =>
    rw [List.cons_append, lookup, lookup, ih]
    split <;> rfl

/-! ## Stored values -/

/-- The value that is read from the file to which a value was written. -/
def stored (v : Json) : Json := v.sortKeys.reread

theorem stored_text {t : Text} (h : ∀ c ∈ t, Text.IsScalar c) : stored (.text t) = .text t :=
  (faithful_text h).reread_eq

theorem stored_array (items : List Json) : stored (.array items) = .array (items.map stored) := by
  unfold stored
  rw [sortKeys_array, reread, rereadItems_eq, List.map_map]
  rfl

theorem stored_object (hscalar : ∀ p ∈ fields, ∀ c ∈ p.1, Text.IsScalar c) :
    stored (.object fields) = .object
      ((inOrder (fields.map fun p => (p.1, p.2.sortKeys))).map fun p => (p.1, p.2.reread)) := by
  unfold stored
  rw [sortKeys_object, reread, rereadFields_of_scalar]
  intro p hp
  obtain ⟨q, hq, rfl⟩ := List.mem_map.1 ((inOrder_perm _).mem_iff.1 hp)
  exact hscalar q hq

/-- What comes back has the same fields under the same keys. -/
theorem field?_stored (h : Writable v) (key : Text) :
    v.stored.field? key = (v.field? key).map stored := by
  cases h with
  | @object fields hkeys hscalar _ =>
    rw [stored_object hscalar]
    show lookup key _ = (lookup key fields).map stored
    rw [lookup_map, ← lookup_perm (inOrder_perm _).symm, lookup_map, Option.map_map]
    · rfl
    · rw [List.map_map]
      exact hkeys
  | array _ =>
    rw [stored_array]
    rfl
  | _ => rfl

theorem isSome_fields?_stored (v : Json) : v.stored.fields?.isSome = v.fields?.isSome := by
  cases v <;> rfl

/-! ## Lasting values -/

/-- The value can be written to a file and comes back as it was. -/
structure Lasting (v : Json) : Prop where
  writable : Writable v
  stored_eq : v.stored = v

theorem lasting_int (i : Int) : Lasting (.int i) := ⟨.int i, rfl⟩

theorem lasting_text {t : Text} (h : ∀ c ∈ t, Text.IsScalar c) : Lasting (.text t) :=
  ⟨.text t, stored_text h⟩

theorem lasting_array (h : ∀ v ∈ items, Lasting v) : Lasting (.array items) := by
  refine ⟨.array fun v hv => (h v hv).writable, ?_⟩
  have hitems : items.map stored = items.map id :=
    List.map_congr_left fun v hv => (h v hv).stored_eq
  rw [stored_array, hitems, List.map_id]

/-- An object with its keys in order comes back as it was if its values do. -/
theorem lasting_object (hkeys : (fields.map Prod.fst).Nodup)
    (horder : (fields.map Prod.fst).Pairwise fun k l => Text.precedes l k = false)
    (hscalar : ∀ p ∈ fields, ∀ c ∈ p.1, Text.IsScalar c) (h : ∀ p ∈ fields, Lasting p.2) :
    Lasting (.object fields) := by
  refine ⟨.object hkeys hscalar fun p hp => (h p hp).writable, ?_⟩
  have hsorted : inOrder (fields.map fun p => (p.1, p.2.sortKeys)) =
      fields.map fun p => (p.1, p.2.sortKeys) := by
    refine List.mergeSort_of_pairwise (List.pairwise_map.2 ((List.pairwise_map.1 horder).imp ?_))
    intro p q hpq
    rw [hpq]
    rfl
  have hvalues : fields.map (fun p => (p.1, p.2.stored)) = fields.map id :=
    List.map_congr_left fun p hp => by rw [(h p hp).stored_eq]; rfl
  rw [stored_object hscalar, hsorted, List.map_map]
  refine congrArg Json.object (Eq.trans ?_ (hvalues.trans (List.map_id _)))
  rfl

/-- An object whose values come back as they were has the same fields when it comes back. -/
theorem field?_stored_of_lasting (hv : Writable (.object fields)) (h : ∀ p ∈ fields, Lasting p.2)
    (key : Text) : (stored (.object fields)).field? key = (Json.object fields).field? key := by
  rw [field?_stored hv]
  cases hv with
  | object hkeys _ _ =>
    show (lookup key fields).map stored = lookup key fields
    cases hlookup : lookup key fields with
    | none => rfl
    | some w =>
      have hmem := (lookup_eq_some_iff hkeys).1 hlookup
      exact congrArg some (h _ hmem).stored_eq

/-! ## Files -/

/-- What is written to a file is read back from its bytes. -/
theorem load_fileText (h : Writable v) :
    ∃ b, (fileText v).toUtf8? = some b ∧ (Document.bytes b).load = .ok v.stored := by
  have hascii : ∀ c ∈ fileText v, c < 0x80 := by
    unfold fileText
    rw [List.forall_mem_append, List.forall_mem_singleton]
    exact ⟨ascii_writeAt isBlank_indented 0 _, by decide⟩
  obtain ⟨b, hb, htext⟩ := Text.exists_ofUtf8_of_ascii hascii
  have hread : read (fileText v) = .ok v.stored :=
    read_write isBlank_indented h.sortKeys (List.forall_mem_singleton.2 rfl)
  refine ⟨b, hb, ?_⟩
  simp only [Document.load, htext, Document.loadText, hread]

end Json

end XofConformance
