import Mathlib.Data.List.Nodup
import XofConformance.Comparison.Basic
import XofConformance.Proofs.Lists

/-!
# Tables of a document

The tests of a document stand in tables under their identifiers. A table is filled entry by entry,
and the last entry with an identifier is the one that is found; if no identifier is repeated, the
table is the list of its entries.

    (t.putAll (before ++ p :: after)).find? p.1 = some p.2
      if nothing after p has its key                                     (find?_putAll_last)
    no key is repeated → t.putAll ps = t ++ ps                           (putAll_of_distinct)
-/

namespace XofConformance

/-! ## Keys -/

namespace Json

/-- What a value counts as when it is a key. -/
inductive Key
  | null
  | worth (w : Number.Worth)
  | text (t : Text)
  deriving DecidableEq

/-- A value as a key. -/
def key? : Json → Option Key
  | .null => some .null
  | .text t => some (.text t)
  | v => v.numeric?.map fun n => .worth n.worth

variable {a b c : Json}

theorem isKey_iff : a.isKey = true ↔ a.key?.isSome = true := by
  cases a <;> simp [isKey, key?, numeric?]

/-- Two values are the same key if they count as the same. -/
theorem sameKey_iff (ha : a.isKey = true) : sameKey a b = true ↔ a.key? = b.key? := by
  unfold sameKey
  cases a with
  | array items => cases ha
  | object fields => cases ha
  | null => cases b <;> simp [same, key?, numeric?]
  | text s => cases b <;> simp [same, key?, numeric?]
  | bool x => cases b <;> simp [same, key?, numeric?, sameNumber]
  | number n => cases b <;> simp [same, key?, numeric?, sameNumber]

theorem sameKey_refl (ha : a.isKey = true) : sameKey a a = true := (sameKey_iff ha).2 rfl

theorem isKey_of_sameKey (ha : a.isKey = true) (h : sameKey a b = true) : b.isKey = true := by
  rw [isKey_iff, ← (sameKey_iff ha).1 h, ← isKey_iff]
  exact ha

theorem sameKey_symm (ha : a.isKey = true) (h : sameKey a b = true) : sameKey b a = true :=
  (sameKey_iff (isKey_of_sameKey ha h)).2 ((sameKey_iff ha).1 h).symm

/-- Two keys that are the same as a third one are the same. -/
theorem sameKey_of_common (ha : a.isKey = true) (hb : b.isKey = true)
    (hac : sameKey a c = true) (hbc : sameKey b c = true) : sameKey a b = true :=
  (sameKey_iff ha).2 (((sameKey_iff ha).1 hac).trans ((sameKey_iff hb).1 hbc).symm)

/-- The same key is the same as the same keys. -/
theorem sameKey_congr (ha : a.isKey = true) (h : sameKey a b = true) :
    sameKey a c = sameKey b c := by
  have hb := isKey_of_sameKey ha h
  rw [Bool.eq_iff_iff, sameKey_iff ha, sameKey_iff hb, (sameKey_iff ha).1 h]

/-- The same keys are the same as the same key. -/
theorem sameKey_congr_right (ha : a.isKey = true) (hb : b.isKey = true)
    (h : sameKey b c = true) : sameKey a b = sameKey a c := by
  rw [Bool.eq_iff_iff, sameKey_iff ha, sameKey_iff ha, (sameKey_iff hb).1 h]

/-- No two items have the same key if and only if the keys are distinct. -/
theorem pairwise_sameKey_iff {α : Type} {f : α → Json} {as : List α}
    (h : ∀ a ∈ as, (f a).isKey = true) :
    (as.Pairwise fun a b => sameKey (f a) (f b) = false) ↔ (as.map fun a => (f a).key?).Nodup := by
  unfold List.Nodup
  rw [List.pairwise_map]
  refine List.Pairwise.iff_of_mem fun {a b} ha _ => ?_
  rw [← Bool.not_eq_true, sameKey_iff (h a ha)]

end Json

namespace Comparison

open Json (sameKey)

/-! ## Tables -/

namespace Table

variable {α : Type} {t ps : Table α} {k key : Json} {a : α}

/-- All keys of a table are keys. -/
def Keyed (t : Table α) : Prop := ∀ p ∈ t, p.1.isKey = true

/-- No two entries have the same key. -/
def Distinct (t : Table α) : Prop := t.Pairwise fun p q => sameKey p.1 q.1 = false

/-- What is known of the keys of a table is known after something was put into it. -/
theorem forall_mem_put {P : Json → Prop} (ht : ∀ p ∈ t, P p.1) (hk : P k) :
    ∀ p ∈ t.put k a, P p.1 := by
  induction t with
  | nil =>
    intro p hp
    obtain rfl := List.mem_singleton.1 hp
    exact hk
  | cons q rest ih =>
    obtain ⟨hq, hrest⟩ := List.forall_mem_cons.1 ht
    unfold Table.put
    split
    · exact List.forall_mem_cons.2 ⟨hq, hrest⟩
    · exact List.forall_mem_cons.2 ⟨hq, ih hrest⟩

/-- What is in a table after something was put into it. -/
theorem mem_put {k' : Json} {b : α} (hk : k.isKey = true) (h : (k', b) ∈ t.put k a) :
    (k', b) ∈ t ∨ (sameKey k' k = true ∧ b = a) := by
  induction t with
  | nil =>
    cases List.mem_singleton.1 h
    exact Or.inr ⟨Json.sameKey_refl hk, rfl⟩
  | cons q rest ih =>
    unfold Table.put at h
    split at h
    · next hsame =>
      rcases List.mem_cons.1 h with he | h
      · cases he
        exact Or.inr ⟨hsame, rfl⟩
      · exact Or.inl (List.mem_cons_of_mem _ h)
    · rcases List.mem_cons.1 h with he | h
      · exact Or.inl (List.mem_cons.2 (Or.inl he))
      · exact (ih h).imp_left (List.mem_cons_of_mem _)

theorem Keyed.put (ht : t.Keyed) (hk : k.isKey = true) : (t.put k a).Keyed :=
  forall_mem_put (P := fun key => key.isKey = true) ht hk

theorem Distinct.put (h : t.Distinct) : (t.put k a).Distinct := by
  induction t with
  | nil => exact List.pairwise_singleton _ _
  | cons q rest ih =>
    obtain ⟨hfirst, hrest⟩ := List.pairwise_cons.1 h
    unfold Table.put
    split
    · exact List.pairwise_cons.2 ⟨hfirst, hrest⟩
    · next hother =>
      refine List.pairwise_cons.2 ⟨?_, ih hrest⟩
      exact forall_mem_put (P := fun key => sameKey q.1 key = false) hfirst
        (Bool.eq_false_iff.2 hother)

/-- The value that was put under a key is found under it, and the others are found as before. -/
theorem find?_put (ht : t.Keyed) (hk : k.isKey = true) :
    (t.put k a).find? key = if sameKey k key then some a else t.find? key := by
  induction t with
  | nil => rfl
  | cons q rest ih =>
    obtain ⟨k₀, b⟩ := q
    obtain ⟨hk₀, hrest⟩ := List.forall_mem_cons.1 ht
    unfold Table.put
    split
    · next hsame =>
      simp only [find?]
      rw [Json.sameKey_congr hk₀ hsame]
      split <;> rfl
    · next hother =>
      simp only [find?]
      rw [ih hrest]
      split
      · next hkey =>
        have hno : sameKey k key ≠ true := fun hkey' =>
          hother (Json.sameKey_of_common hk₀ hk hkey hkey')
        rw [if_neg hno]
      · rfl

/-- A value takes the place of another one, or is added. -/
theorem sum_put_le (f : α → Nat) :
    ((t.put k a).map fun p => f p.2).sum ≤ (t.map fun p => f p.2).sum + f a := by
  induction t with
  | nil => simp [Table.put]
  | cons q rest ih =>
    unfold Table.put
    split <;> simp only [List.map_cons, List.sum_cons] <;> omega

theorem put_of_fresh (h : ∀ q ∈ t, sameKey q.1 k = false) : t.put k a = t ++ [(k, a)] := by
  induction t with
  | nil => rfl
  | cons q rest ih =>
    obtain ⟨hq, hrest⟩ := List.forall_mem_cons.1 h
    unfold Table.put
    rw [hq, ih hrest]
    rfl

/-! ## Lookups -/

/-- What is found stands in the table under the key. -/
theorem mem_of_find? (h : t.find? key = some a) : ∃ k, (k, a) ∈ t ∧ sameKey k key = true := by
  induction t with
  | nil => cases h
  | cons q rest ih =>
    unfold Table.find? at h
    split at h
    · next hsame =>
      cases h
      exact ⟨_, List.mem_cons_self, hsame⟩
    · obtain ⟨k, hk, hsame⟩ := ih h
      exact ⟨k, List.mem_cons_of_mem _ hk, hsame⟩

/-- The same is found under the same key. -/
theorem find?_congr {key' : Json} (ht : t.Keyed) (hkey : key.isKey = true)
    (h : sameKey key key' = true) : t.find? key = t.find? key' := by
  induction t with
  | nil => rfl
  | cons q rest ih =>
    obtain ⟨hq, hrest⟩ := List.forall_mem_cons.1 ht
    unfold Table.find?
    rw [Json.sameKey_congr_right hq hkey h, ih hrest]

/-- If no key is repeated, what stands under a key is found. -/
theorem find?_eq_some_iff (ht : t.Keyed) (h : t.Distinct) :
    t.find? key = some a ↔ ∃ k, (k, a) ∈ t ∧ sameKey k key = true := by
  refine ⟨mem_of_find?, ?_⟩
  rintro ⟨k, hk, hsame⟩
  induction t with
  | nil => cases hk
  | cons q rest ih =>
    obtain ⟨hfirst, hdistinct⟩ := List.pairwise_cons.1 h
    obtain ⟨hq, hrest⟩ := List.forall_mem_cons.1 ht
    unfold Table.find?
    rcases List.mem_cons.1 hk with rfl | hk
    · rw [if_pos hsame]
    · have hother : sameKey q.1 key ≠ true := by
        intro hqkey
        exact Bool.eq_false_iff.1 (hfirst _ hk)
          (Json.sameKey_of_common hq (hrest _ hk) hqkey hsame)
      rw [if_neg hother]
      exact ih hrest hdistinct hk

/-- If no key is repeated, an entry that is found is the only one under its key. -/
theorem filter_of_find? (ht : t.Keyed) (h : t.Distinct) (hfind : t.find? key = some a) :
    ∃ k, t.filter (fun p => sameKey p.1 key) = [(k, a)] ∧ sameKey k key = true := by
  induction t with
  | nil => cases hfind
  | cons q rest ih =>
    obtain ⟨hfirst, hdistinct⟩ := List.pairwise_cons.1 h
    obtain ⟨hq, hrest⟩ := List.forall_mem_cons.1 ht
    unfold Table.find? at hfind
    split at hfind
    · next hsame =>
      cases hfind
      refine ⟨q.1, ?_, hsame⟩
      have hnone : rest.filter (fun p => sameKey p.1 key) = [] := by
        rw [List.filter_eq_nil_iff]
        intro p hp hpkey
        exact Bool.eq_false_iff.1 (hfirst p hp)
          (Json.sameKey_of_common hq (hrest p hp) hsame hpkey)
      rw [List.filter_cons, if_pos hsame, hnone]
    · next hother =>
      rw [List.filter_cons, if_neg hother]
      exact ih hrest hdistinct hfind

/-! ## Entry by entry -/

/-- The table with entries put into it one after the other. -/
def putAll (t ps : Table α) : Table α := ps.foldl (fun t p => t.put p.1 p.2) t

theorem putAll_append (t ps qs : Table α) : t.putAll (ps ++ qs) = (t.putAll ps).putAll qs :=
  List.foldl_append

theorem Keyed.putAll (ht : t.Keyed) (hps : ps.Keyed) : (t.putAll ps).Keyed := by
  induction ps generalizing t with
  | nil => exact ht
  | cons p rest ih =>
    obtain ⟨hp, hrest⟩ := List.forall_mem_cons.1 hps
    exact ih (ht.put hp) hrest

theorem Distinct.putAll (h : t.Distinct) (ps : Table α) : (t.putAll ps).Distinct := by
  induction ps generalizing t with
  | nil => exact h
  | cons p rest ih => exact ih h.put

/-- A value is found as before if no other one was put under its key. -/
theorem find?_putAll_of_other (ht : t.Keyed) (hps : ps.Keyed)
    (hother : ∀ q ∈ ps, sameKey q.1 key = false) : (t.putAll ps).find? key = t.find? key := by
  induction ps generalizing t with
  | nil => rfl
  | cons p rest ih =>
    obtain ⟨hp, hrest⟩ := List.forall_mem_cons.1 hps
    obtain ⟨hno, hothers⟩ := List.forall_mem_cons.1 hother
    have hfirst : (t.put p.1 p.2).find? key = if sameKey p.1 key then some p.2 else t.find? key :=
      find?_put ht hp
    rw [if_neg (Bool.eq_false_iff.1 hno)] at hfirst
    exact (ih (ht.put hp) hrest hothers).trans hfirst

/-- What was put last under a key is found under it. -/
theorem find?_putAll_last {before after : Table α} {p : Json × α}
    (hps : (before ++ p :: after).Keyed) (hlast : ∀ q ∈ after, sameKey q.1 p.1 = false) :
    (putAll [] (before ++ p :: after)).find? p.1 = some p.2 := by
  obtain ⟨hbefore, hrest⟩ := List.forall_mem_append.1 hps
  obtain ⟨hp, hafter⟩ := List.forall_mem_cons.1 hrest
  have hstart : (putAll [] before).Keyed := Keyed.putAll (t := []) nofun hbefore
  rw [putAll_append]
  show (putAll ((putAll [] before).put p.1 p.2) after).find? p.1 = some p.2
  rw [find?_putAll_of_other (hstart.put hp) hafter hlast, find?_put hstart hp,
    if_pos (Json.sameKey_refl hp)]

/-- What is in the table was put into it, under its key or one that is the same. -/
theorem mem_putAll (hps : ps.Keyed) (h : (k, a) ∈ t.putAll ps) :
    (k, a) ∈ t ∨ ∃ p ∈ ps, sameKey k p.1 = true ∧ p.2 = a := by
  induction ps generalizing t with
  | nil => exact Or.inl h
  | cons p rest ih =>
    obtain ⟨hp, hrest⟩ := List.forall_mem_cons.1 hps
    rcases ih hrest h with hput | ⟨q, hq, hsame⟩
    · rcases mem_put hp hput with ht | ⟨hsame, rfl⟩
      · exact Or.inl ht
      · exact Or.inr ⟨p, List.mem_cons_self, hsame, rfl⟩
    · exact Or.inr ⟨q, List.mem_cons_of_mem _ hq, hsame⟩

/-- What is found was put last under its key. -/
theorem exists_last_of_find? (hps : ps.Keyed) (h : (putAll [] ps).find? key = some a) :
    ∃ before p after, ps = before ++ p :: after ∧ p.2 = a ∧ sameKey p.1 key = true ∧
      ∀ q ∈ after, sameKey q.1 p.1 = false := by
  obtain ⟨k, hk, hsame⟩ := mem_of_find? h
  have hkey : k.isKey = true := Keyed.putAll (t := []) nofun hps _ hk
  obtain ⟨r, hr, hkr, -⟩ := (mem_putAll hps hk).resolve_left List.not_mem_nil
  have hrkey : sameKey r.1 key = true := by
    rw [← Json.sameKey_congr hkey hkr]
    exact hsame
  obtain ⟨before, p, after, rfl, hpkey, hafter⟩ :=
    exists_last_of_mem (p := fun q => sameKey q.1 key) hr hrkey
  have hp : p.1.isKey = true := hps p (by simp)
  have hlast : ∀ q ∈ after, sameKey q.1 p.1 = false := by
    intro q hq
    rw [Json.sameKey_congr_right (hps q (by simp [hq])) hp hpkey]
    exact hafter q hq
  refine ⟨before, p, after, rfl, ?_, hpkey, hlast⟩
  rw [← find?_congr (Keyed.putAll (t := []) nofun hps) hp hpkey,
    find?_putAll_last hps hlast] at h
  exact Option.some.inj h

theorem sum_putAll_le (f : α → Nat) : ((t.putAll ps).map fun p => f p.2).sum ≤
    (t.map fun p => f p.2).sum + (ps.map fun p => f p.2).sum := by
  induction ps generalizing t with
  | nil => exact Nat.le_refl _
  | cons p rest ih =>
    have hfirst := sum_put_le (t := t) (k := p.1) (a := p.2) f
    have hrest := ih (t := t.put p.1 p.2)
    rw [List.map_cons, List.sum_cons]
    show ((putAll (t.put p.1 p.2) rest).map fun p => f p.2).sum ≤ _
    omega

theorem length_putAll_le : (putAll [] ps).length ≤ ps.length := by
  have hsum : ((putAll [] ps).map fun _ => 1).sum ≤ 0 + (ps.map fun _ => 1).sum :=
    sum_putAll_le fun _ => 1
  simpa using hsum

/-- If no key is repeated, the table is the list of its entries. -/
theorem putAll_of_distinct (h : ps.Distinct) (hfresh : ∀ p ∈ ps, ∀ q ∈ t, sameKey q.1 p.1 = false) :
    t.putAll ps = t ++ ps := by
  induction ps generalizing t with
  | nil => exact (List.append_nil t).symm
  | cons p rest ih =>
    obtain ⟨hfirst, hrest⟩ := List.pairwise_cons.1 h
    obtain ⟨hp, hothers⟩ := List.forall_mem_cons.1 hfresh
    have hput : t.put p.1 p.2 = t ++ [p] := put_of_fresh hp
    show putAll (t.put p.1 p.2) rest = t ++ p :: rest
    rw [hput, ih hrest, List.append_assoc]
    · rfl
    · intro q hq r hr
      rcases List.mem_append.1 hr with hr | hr
      · exact hothers q hq r hr
      · obtain rfl := List.mem_singleton.1 hr
        exact hfirst q hq

end Table

end Comparison

end XofConformance
