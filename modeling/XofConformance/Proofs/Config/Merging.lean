import XofConformance.Proofs.Config.Variables

/-!
# One mapping over another

Two mappings one after the other are as good as one mapping in which the second has replaced the
first key by key: what both say lies over the settings in the same way.

    b.override m₁ >>= (·.override m₂) = .ok c → b.override m = .ok c     (override_of_overrides)
-/

namespace XofConformance

namespace Yaml

/-! ## Keys -/

namespace Scalar

variable {a b c : Scalar}

/-- What a key is, apart from how it is written. -/
inductive Identity
  | number (worth : Number.Worth)
  | moment (kind : Nat) (instant : Int)
  | itself (a : Scalar)

/-- The identity of a key. -/
def identity : Scalar → Identity
  | .bool b => .number (Number.int (if b then 1 else 0)).worth
  | .number n => .number n.worth
  | .timestamp stamp => .moment (moment stamp).1 (moment stamp).2
  | a => .itself a

/-- Keys are the same if they have the same identity. -/
theorem same_iff : a.same b = true ↔ a.identity = b.identity := by
  cases a <;> cases b <;> simp [same, numeric?, identity, Prod.ext_iff]

theorem same_self : a.same a = true := same_iff.2 rfl

/-- What is the same as one of two keys that are the same is the same as the other one. -/
theorem same_congr (h : a.same b = true) : a.same c = b.same c := by
  rw [Bool.eq_iff_iff, same_iff, same_iff, same_iff.1 h]

theorem same_comm : a.same b = b.same a := by
  rw [Bool.eq_iff_iff, same_iff, same_iff]
  exact eq_comm

end Scalar

/-! ## Entries -/

namespace Value

variable {k key : Scalar} {v : Value} {e : Scalar × Value} {es fs : List (Scalar × Value)}

/-- A text is the same key as nothing but itself. -/
theorem text_same_iff {t : Text} : (Scalar.text t).same key = true ↔ key = .text t := by
  rw [Scalar.same_comm, same_text_iff]

theorem lookup_insert :
    lookup key (insert k v es) = if k.same key then some v else lookup key es := by
  induction es with
  | nil => rfl
  | cons p rest ih =>
    obtain ⟨k', w⟩ := p
    rw [insert]
    cases hk : k'.same k with
    | true =>
      rw [if_pos rfl, lookup, lookup, Scalar.same_congr hk]
      split <;> rfl
    | false =>
      rw [if_neg Bool.false_ne_true, lookup, lookup, ih]
      cases hkey : k.same key with
      | false => rfl
      | true =>
        -- the first key is another one
        have hother : k'.same key = false := by
          rw [Scalar.same_comm, ← Scalar.same_congr hkey, Scalar.same_comm]
          exact hk
        rw [hother]
        rfl

/-- The entries with other ones put over them, one by one. -/
def overlaid (es fs : List (Scalar × Value)) : List (Scalar × Value) :=
  fs.foldl (fun es e => insert e.1 e.2 es) es

/-- The entries have a key each. -/
def Distinct (es : List (Scalar × Value)) : Prop := es.Pairwise fun e f => e.1.same f.1 = false

instance (es : List (Scalar × Value)) : Decidable (Distinct es) :=
  inferInstanceAs (Decidable (es.Pairwise _))

theorem lookup_eq_none (h : ∀ e ∈ es, key.same e.1 = false) : lookup key es = none := by
  induction es with
  | nil => rfl
  | cons p rest ih =>
    obtain ⟨hfirst, hrest⟩ := List.forall_mem_cons.1 h
    rw [lookup, Scalar.same_comm, hfirst]
    exact ih hrest

theorem lookup_overlaid (h : Distinct fs) :
    lookup key (overlaid es fs) = (lookup key fs <|> lookup key es) := by
  induction fs generalizing es with
  | nil => rfl
  | cons p rest ih =>
    obtain ⟨hfirst, hrest⟩ := List.pairwise_cons.1 h
    show lookup key (overlaid (insert p.1 p.2 es) rest) = _
    rw [ih hrest, lookup_insert, lookup]
    cases hp : p.1.same key with
    | false => rfl
    | true =>
      have hnone : lookup key rest = none :=
        lookup_eq_none fun e he => (Scalar.same_congr hp).symm.trans (hfirst e he)
      rw [hnone]
      rfl

/-- A key that is there has a value. -/
theorem isSome_lookup_of_mem (h : e ∈ es) : (lookup e.1 es).isSome = true := by
  induction es with
  | nil => cases h
  | cons p rest ih =>
    rw [lookup]
    split
    · rfl
    · next hp =>
      rcases List.mem_cons.1 h with rfl | h
      · exact absurd Scalar.same_self hp
      · exact ih h

/-- What has a value under a key has an entry of the same key. -/
theorem exists_mem_of_isSome_lookup (h : (lookup key es).isSome = true) :
    ∃ e ∈ es, e.1.same key = true := by
  induction es with
  | nil => cases h
  | cons p rest ih =>
    rw [lookup] at h
    split at h
    · next hp => exact ⟨p, List.mem_cons_self, hp⟩
    · obtain ⟨e, he, hsame⟩ := ih h
      exact ⟨e, List.mem_cons_of_mem _ he, hsame⟩

end Value

end Yaml

namespace Config

open Yaml (Scalar Value)

variable {b c : Config} {m₁ m₂ m : Entries} {l₁ l₂ : Layer} {k : Scalar}

/-- The mapping has all values of the second mapping, and those of the first under other keys. -/
def IsOverlay (m₁ m₂ m : Entries) : Prop :=
  ∀ key, Value.lookup key m = (Value.lookup key m₂ <|> Value.lookup key m₁)

/-- The first mapping with the second one put over it. -/
theorem isOverlay_overlaid (h : Value.Distinct m₂) :
    IsOverlay m₁ m₂ (Value.overlaid m₁ m₂) := fun _ => Value.lookup_overlaid h

theorem IsOverlay.setting?_eq (h : IsOverlay m₁ m₂ m) {name : String} :
    setting? name m = (setting? name m₂ <|> setting? name m₁) := h _

theorem isField_iff : isField k = true ↔ ∃ name ∈ fieldNames, k = .text name := by
  unfold isField
  rw [List.any_eq_true]
  simp only [beq_iff_eq]

/-- A key with a value in a mapping of known keys is known, whichever way it is written. -/
theorem isField_of_isSome_lookup (hm : Known m) (h : (Value.lookup k m).isSome = true) :
    isField k = true := by
  obtain ⟨e, he, hsame⟩ := Value.exists_mem_of_isSome_lookup h
  obtain ⟨name, hname, hkey⟩ := isField_iff.1 (hm e he)
  rw [hkey] at hsame
  exact isField_iff.2 ⟨name, hname, Value.text_same_iff.1 hsame⟩

theorem IsOverlay.known (h : IsOverlay m₁ m₂ m) (h₁ : Known m₁) (h₂ : Known m₂) : Known m := by
  intro e he
  have hthere := Value.isSome_lookup_of_mem he
  rw [h e.1] at hthere
  cases h₂' : Value.lookup e.1 m₂ with
  | some v => exact isField_of_isSome_lookup h₂ (by rw [h₂']; rfl)
  | none =>
    rw [h₂'] at hthere
    exact isField_of_isSome_lookup h₁ hthere

theorem rel_orElse {α β : Type} {R : α → β → Prop} {x₁ x₂ : Option α} {y₁ y₂ : Option β}
    (h₁ : Option.Rel R x₁ y₁) (h₂ : Option.Rel R x₂ y₂) :
    Option.Rel R (x₂ <|> x₁) (y₂ <|> y₁) := by
  cases h₂ with
  | none => exact h₁
  | some h => exact .some h

/-- Over what the first mapping says lies what the second one says. -/
theorem Layer.SaidBy.under (h : IsOverlay m₁ m₂ m) (h₁ : l₁.SaidBy m₁) (h₂ : l₂.SaidBy m₂) :
    (l₁.under l₂).SaidBy m where
  known := h.known h₁.known h₂.known
  actor := by
    rw [h.setting?_eq]
    exact rel_orElse h₁.actor h₂.actor
  actorArgs := by
    rw [h.setting?_eq]
    exact rel_orElse h₁.actorArgs h₂.actorArgs
  workers := by
    rw [h.setting?_eq]
    exact rel_orElse h₁.workers h₂.workers
  timeoutSecs := by
    rw [h.setting?_eq]
    exact rel_orElse h₁.timeoutSecs h₂.timeoutSecs

/-- Mappings that are taken one after the other may be laid over each other first. -/
theorem override_of_overrides (h : IsOverlay m₁ m₂ m)
    (hc : (b.override m₁ >>= fun c => c.override m₂) = .ok c) : b.override m = .ok c := by
  obtain ⟨c₁, hc₁, hc⟩ := exists_of_bind_eq_ok hc
  obtain ⟨l₁, h₁, rfl⟩ := override_eq_ok_iff.1 hc₁
  obtain ⟨l₂, h₂, rfl⟩ := override_eq_ok_iff.1 hc
  rw [under_under]
  exact override_eq_ok_iff.2 ⟨l₁.under l₂, h₁.under h h₂, rfl⟩

end Config

end XofConformance
