import XofConformance.Exchange.Desk
import XofConformance.Proofs.Exchange.Operations
import XofConformance.Proofs.Lists

/-!
# Groups on the desk

What opening, filling and collecting a group comes to. A group is collected when no slot of it is
empty, and then its answers are what the slots hold, slot by slot.

    g.missing = [] → g.slots = g.answers.map some              (OpenGroup.slots_of_complete)
-/

namespace XofConformance

namespace OpenGroup

theorem slots_of_complete {g : OpenGroup} (h : g.missing = []) : g.slots = g.answers.map some := by
  rw [missing_eq_nil_iff] at h
  unfold answers
  generalize g.slots = slots at h
  induction slots with
  | nil => rfl
  | cons s rest ih =>
    obtain ⟨r, rfl⟩ := Option.isSome_iff_exists.1 (h s List.mem_cons_self)
    rw [List.filterMap_cons_some (by rfl), List.map_cons,
      ← ih fun t ht => h t (List.mem_cons_of_mem _ ht)]

/-- A slot of a group that is not complete is empty. -/
theorem exists_empty_slot {g : OpenGroup} (h : g.missing ≠ []) :
    ∃ i : Nat, g.slots[i]? = some none := by
  apply Classical.byContradiction
  intro hn
  apply h
  rw [missing_eq_nil_iff]
  intro s hs
  obtain ⟨i, hi⟩ := List.mem_iff_getElem?.1 hs
  cases s with
  | some r => rfl
  | none => exact absurd ⟨i, hi⟩ hn

/-- Every slot of a complete group is filled. -/
theorem exists_filled_slot {g : OpenGroup} (h : g.missing = []) {i : Nat}
    (hi : i < g.slots.length) : ∃ r, g.slots[i]? = some (some r) := by
  rw [missing_eq_nil_iff] at h
  obtain ⟨r, hr⟩ := Option.isSome_iff_exists.1 (h g.slots[i] (List.getElem_mem hi))
  exact ⟨r, by rw [List.getElem?_eq_getElem hi, hr]⟩

/-- The answers of a complete group stand in the relation in which its slots stand. -/
theorem forall₂_answers {α : Type} {R : α → TestResponse → Prop} {g : OpenGroup} {items : List α}
    (hc : g.missing = []) (hlen : g.slots.length = items.length)
    (h : ∀ {i : Nat} {r : TestResponse}, g.slots[i]? = some (some r) →
      ∃ a, items[i]? = some a ∧ R a r) :
    List.Forall₂ R items g.answers := by
  have hs := slots_of_complete hc
  rw [List.forall₂_iff_get]
  rw [hs, List.length_map] at hlen
  refine ⟨hlen.symm, fun i hi hi' => ?_⟩
  have hslot : g.slots[i]? = some (some g.answers[i]) := by
    rw [hs, List.getElem?_map, List.getElem?_eq_getElem hi']
    rfl
  obtain ⟨a, ha, hr⟩ := h hslot
  obtain ⟨_, rfl⟩ := List.getElem?_eq_some_iff.1 ha
  exact hr

/-- What is in the slots after one of them was filled. -/
theorem getElem?_set_slot {slots : List (Option TestResponse)} {i j : Nat} {r r' : TestResponse}
    (h : (slots.set i (some r))[j]? = some (some r')) :
    (j = i ∧ r' = r) ∨ slots[j]? = some (some r') := by
  rcases getElem?_set_cases h with ⟨hj, he⟩ | ⟨-, hold⟩
  · cases he
    exact Or.inl ⟨hj, rfl⟩
  · exact Or.inr hold

/-- A slot that is filled stays filled when one is filled. -/
theorem set_slot_filled {slots : List (Option TestResponse)} {i j : Nat} {r r' : TestResponse}
    (h : slots[j]? = some (some r')) : ∃ r'', (slots.set i (some r))[j]? = some (some r'') := by
  obtain ⟨hj, -⟩ := List.getElem?_eq_some_iff.1 h
  rw [List.getElem?_set]
  split
  · next hi => exact ⟨r, by rw [if_pos (hi ▸ hj)]⟩
  · exact ⟨r', h⟩

/-- Filling the slot after those that are filled. -/
theorem set_next_slot {responses : List TestResponse} {r : TestResponse} {count : Nat} :
    (responses.map some ++ List.replicate (count + 1) none).set responses.length (some r) =
      (responses ++ [r]).map some ++ List.replicate count none := by
  have hle : (responses.map some).length ≤ responses.length := Nat.le_of_eq (List.length_map some)
  rw [List.set_append_right _ _ hle, List.length_map, Nat.sub_self, List.replicate_succ,
    List.set_cons_zero, List.map_append, List.append_assoc]
  rfl

end OpenGroup

namespace Desk

variable {ε : Type}

/-- Filling a slot that there is. -/
theorem fill_eq {d : Desk ε} {group index : Nat} {r : TestResponse} {g : OpenGroup}
    (hg : d.groups[group]? = some g) (hi : index < g.slots.length) :
    d.fill group index r =
      .ok { d with groups := d.groups.set group { g with slots := g.slots.set index (some r) } } := by
  unfold fill
  simp [hg, OpenGroup.fill?, hi]

theorem getElem?_set_group {groups : List OpenGroup} {group : Nat} {g g' : OpenGroup}
    (hg : groups[group]? = some g) : (groups.set group g')[group]? = some g' := by
  obtain ⟨hlt, -⟩ := List.getElem?_eq_some_iff.1 hg
  rw [List.getElem?_set_self hlt]

section

variable {m : Type → Type} [Monad m] [LawfulMonad m] {W : Type} [HasRuns m W]
  {env : Setting (Desk ε) m} {p p' : Pool (Desk ε)} {w w' : W}

/-- The pool after a group was opened. -/
def opened (tgId : Number) (count : Nat) (p : Pool (Desk ε)) : Pool (Desk ε) :=
  { p with client := { p.client with groups := p.client.groups ++ [OpenGroup.empty tgId count] } }

/-- The group that was opened is the last one. -/
theorem getElem?_opened {tgId : Number} {count : Nat} :
    (opened tgId count p).client.groups[p.client.groups.length]? = some (.empty tgId count) :=
  List.getElem?_concat_length

/-- The group that was opened has a slot for each of its items. -/
theorem exists_opened {tgId : Number} {count : Nat} :
    ∃ g, (opened tgId count p).client.groups[p.client.groups.length]? = some g ∧
      0 + count ≤ g.slots.length :=
  ⟨_, getElem?_opened, Nat.le_of_eq ((Nat.zero_add _).trans List.length_replicate.symm)⟩

theorem ends_openGroup {tgId : Number} {count : Nat} {r : Except Fault Nat} :
    Ends (openGroup tgId count : Exchange (Desk ε) m Nat) (p, w) r (p', w') ↔
      r = .ok p.client.groups.length ∧ p' = opened tgId count p ∧ w' = w := by
  unfold openGroup
  rw [ends_get_bind, ends_set_bind]
  exact ends_pure.trans (by rw [Prod.mk.injEq]; rfl)

theorem ends_fillNow {group index : Nat} {r : TestResponse} {g : OpenGroup} {q : Except Fault Unit}
    (hg : p.client.groups[group]? = some g) (hi : index < g.slots.length) :
    Ends (fillNow group index r : Exchange (Desk ε) m Unit) (p, w) q (p', w') ↔
      q = .ok () ∧ w' = w ∧ p' = { p with client := { p.client with
        groups := p.client.groups.set group { g with slots := g.slots.set index (some r) } } } := by
  unfold fillNow
  rw [ends_get_bind, fill_eq hg hi]
  exact ends_set.trans (by rw [and_comm (a := w' = w)])

/-- Collecting a group leaves everything as it is. -/
theorem collect_leaves {group : Nat} {r : Except Fault GroupResponse}
    (h : Ends (collect group : Exchange (Desk ε) m GroupResponse) (p, w) r (p', w')) :
    p' = p ∧ w' = w := by
  unfold collect at h
  rw [ends_get_bind] at h
  simp only at h
  split at h
  · obtain ⟨-, he⟩ := ends_pure.1 h
    cases he
    exact ⟨rfl, rfl⟩
  · obtain ⟨-, he⟩ := ends_throw.1 h
    cases he
    exact ⟨rfl, rfl⟩

/-- A group is collected as it stands, if it is complete. -/
theorem ends_collect {group : Nat} {g : OpenGroup} {r : Except Fault GroupResponse}
    (hg : p.client.groups[group]? = some g) :
    Ends (collect group : Exchange (Desk ε) m GroupResponse) (p, w) r (p', w') ↔
      p' = p ∧ w' = w ∧ ((g.missing = [] ∧ r = .ok g.snapshot) ∨
        g.missing ≠ [] ∧ r = .error (.subject (.missingResults g.tgId g.missing.length))) := by
  unfold collect
  rw [ends_get_bind]
  simp only [hg, Option.getD_some, List.isEmpty_iff]
  split
  · next hm =>
    rw [ends_pure, Prod.mk.injEq]
    constructor
    · rintro ⟨rfl, rfl, rfl⟩
      exact ⟨rfl, rfl, Or.inl ⟨hm, rfl⟩⟩
    · rintro ⟨rfl, rfl, ⟨-, rfl⟩ | ⟨hn, -⟩⟩
      · exact ⟨rfl, rfl, rfl⟩
      · exact absurd hm hn
  · next hm =>
    rw [ends_throw, Prod.mk.injEq]
    constructor
    · rintro ⟨rfl, rfl, rfl⟩
      exact ⟨rfl, rfl, Or.inr ⟨hm, rfl⟩⟩
    · rintro ⟨rfl, rfl, ⟨hn, -⟩ | ⟨-, rfl⟩⟩
      · exact absurd hn hm
      · exact ⟨rfl, rfl, rfl⟩

end

end Desk

end XofConformance
