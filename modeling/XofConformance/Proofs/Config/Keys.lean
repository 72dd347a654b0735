import Mathlib.Data.List.Basic
import XofConformance.Config
import XofConformance.Proofs.Lists

/-!
# Keys in their order

Two keys can be compared if they are of one sort: numbers, texts, bytes, or points in time of one
kind. Nothing is not even compared with itself. Keys are sorted by putting one after the other among
those before it, which goes well exactly if any two of them can be compared.

    (sortKeys keys).isSome ↔ keys.Pairwise Comparable                      (isSome_sortKeys_iff)
-/

namespace XofConformance

namespace Yaml.Scalar

variable {a b c : Scalar}

/-- The sorts of keys that can be compared with each other. -/
inductive KeySort
  | number
  | text
  | bytes
  /-- Points in time: dates, local times, or times with an offset. -/
  | moment (kind : Nat)
  deriving DecidableEq

/-- The sort of a key, if it can be compared with any. -/
def sort? : Scalar → Option KeySort
  | .null => none
  | .bool _ | .number _ => some .number
  | .text _ => some .text
  | .bytes _ => some .bytes
  | .timestamp stamp => some (.moment (moment stamp).1)

/-- The keys are of one sort. -/
def Comparable (a b : Scalar) : Prop := a.sort?.isSome = true ∧ a.sort? = b.sort?

theorem Comparable.symm (h : Comparable a b) : Comparable b a :=
  ⟨h.2 ▸ h.1, h.2.symm⟩

theorem Comparable.trans (hab : Comparable a b) (hbc : Comparable b c) : Comparable a c :=
  ⟨hab.1, hab.2.trans hbc.2⟩

theorem isSome_less?_iff : (a.less? b).isSome = true ↔ Comparable a b := by
  cases a <;> cases b <;> simp [less?, numeric?, Comparable, sort?]

end Yaml.Scalar

namespace Config

open Yaml (Scalar)

variable {key : Scalar} {keys sorted r : List Scalar}

/-- A key is put among keys without loss. -/
theorem insertKey_perm (h : insertKey key sorted = some r) : r.Perm (key :: sorted) := by
  induction sorted generalizing r with
  | nil =>
    cases h
    exact .refl _
  | cons k rest ih =>
    obtain ⟨less, -, h⟩ := Option.bind_eq_some_iff.1 h
    cases less with
    | true =>
      cases h
      exact .refl _
    | false =>
      obtain ⟨r', hr', h⟩ := Option.bind_eq_some_iff.1 h
      cases h
      exact ((ih hr').cons k).trans (.swap key k rest)

/-- A key has a place among keys of one sort exactly if it is of that sort. -/
theorem isSome_insertKey_iff (hsorted : sorted.Pairwise Scalar.Comparable) :
    (insertKey key sorted).isSome = true ↔ ∀ k ∈ sorted, Scalar.Comparable key k := by
  induction sorted with
  | nil => simp [insertKey]
  | cons k rest ih =>
    obtain ⟨hfirst, hrest⟩ := List.pairwise_cons.1 hsorted
    constructor
    · intro h
      obtain ⟨r, hr⟩ := Option.isSome_iff_exists.1 h
      obtain ⟨less, hless, -⟩ := Option.bind_eq_some_iff.1 hr
      -- the first key is compared at once, and it stands for all others
      have hkey : Scalar.Comparable key k := Scalar.isSome_less?_iff.1 (by rw [hless]; rfl)
      intro k' hk'
      rcases List.mem_cons.1 hk' with rfl | hk'
      · exact hkey
      · exact hkey.trans (hfirst k' hk')
    · intro h
      obtain ⟨hkey, hothers⟩ := List.forall_mem_cons.1 h
      obtain ⟨less, hless⟩ := Option.isSome_iff_exists.1 (Scalar.isSome_less?_iff.2 hkey)
      obtain ⟨r, hr⟩ := Option.isSome_iff_exists.1 ((ih hrest).2 hothers)
      rw [insertKey, hless, hr]
      cases less <;> rfl

/-- Keys that are put one after the other among keys of one sort. -/
theorem isSome_foldlM_iff (hsorted : sorted.Pairwise Scalar.Comparable) :
    (keys.foldlM (fun sorted k => insertKey k sorted) sorted).isSome = true ↔
      (sorted ++ keys).Pairwise Scalar.Comparable := by
  induction keys generalizing sorted with
  | nil =>
    rw [List.append_nil]
    exact iff_of_true rfl hsorted
  | cons k rest ih =>
    have hmiddle : (sorted ++ k :: rest).Pairwise Scalar.Comparable ↔
        ((k :: sorted) ++ rest).Pairwise Scalar.Comparable :=
      List.perm_middle.pairwise_iff fun h => h.symm
    rw [List.foldlM_cons, hmiddle]
    cases hr : insertKey k sorted with
    | none =>
      refine iff_of_false (fun h => by cases h) fun h => ?_
      have hall := (isSome_insertKey_iff hsorted).2 fun k' hk' =>
        (List.pairwise_cons.1 h).1 k' (List.mem_append_left rest hk')
      rw [hr] at hall
      cases hall
    | some r =>
      have hall := (isSome_insertKey_iff hsorted).1 (Option.isSome_iff_exists.2 ⟨r, hr⟩)
      have hperm := insertKey_perm hr
      have hpair : r.Pairwise Scalar.Comparable :=
        (hperm.pairwise_iff fun h => h.symm).2 (List.pairwise_cons.2 ⟨hall, hsorted⟩)
      show (rest.foldlM (fun sorted k => insertKey k sorted) r).isSome = true ↔ _
      rw [ih hpair]
      exact (hperm.append_right rest).pairwise_iff fun h => h.symm

/-- **Keys have an order** exactly if any two of them can be compared. -/
theorem isSome_sortKeys_iff : (sortKeys keys).isSome = true ↔ keys.Pairwise Scalar.Comparable :=
  isSome_foldlM_iff .nil

end Config

end XofConformance
