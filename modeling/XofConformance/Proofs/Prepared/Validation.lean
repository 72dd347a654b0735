import XofConformance.Prepared.Validation
import XofConformance.Proofs.Lists
import XofConformance.Proofs.Number.Words

/-!
# What preparing keeps

A vector set that is prepared keeps its shape: there is a prepared group to every group and a
prepared case to every case, in the same order, with the same identifiers and output lengths.

    vs.prepare = .ok groups → List.Forall₂ Prepares vs.groups groups      (forall₂_of_prepare)
-/

namespace XofConformance

namespace TestCase

variable {tgId : Number} {t : TestCase} {c : PreparedCase}

/-! ## Cases -/

/-- A case is prepared without a change to its identifier and its output length. -/
theorem prepare_keeps (h : t.prepare tgId = .ok c) : c.tcId = t.tcId ∧ c.outLen = t.outLen := by
  unfold prepare at h
  obtain ⟨customization, -, h⟩ := exists_of_bind_eq_ok h
  obtain ⟨msg, -, h⟩ := exists_of_bind_eq_ok h
  dsimp only at h
  split at h
  · cases h
  split at h
  · cases h
  obtain ⟨functionName, -, h⟩ := exists_of_bind_eq_ok h
  cases h
  exact ⟨rfl, rfl⟩

theorem forall₂_of_prepareAll {seen : List Number} {tests : List TestCase}
    {cases : List PreparedCase} (h : prepareAll tgId seen tests = .ok cases) :
    List.Forall₂ (fun t c => t.prepare tgId = .ok c) tests cases := by
  induction tests generalizing seen cases with
  | nil =>
    cases h
    exact .nil
  | cons t rest ih =>
    unfold prepareAll at h
    split at h
    · cases h
    obtain ⟨c, hc, h⟩ := exists_of_bind_eq_ok h
    obtain ⟨cs, hcs, h⟩ := exists_of_bind_eq_ok h
    cases h
    exact .cons hc (ih hcs)

end TestCase

namespace TestGroup

/-! ## Groups -/

/-- The prepared group is made of what the group is made of. -/
structure Prepares (g : TestGroup) (p : PreparedGroup) : Prop where
  tgId : p.tgId = g.tgId
  testType : TestType.ofName? g.testType = some p.testType
  bounds : g.prepareBounds p.testType = .ok p.bounds
  cases : List.Forall₂ (fun t c => t.prepare g.tgId = .ok c) g.tests p.cases

theorem prepares_of_prepare {g : TestGroup} {p : PreparedGroup} (h : g.prepare = .ok p) :
    g.Prepares p := by
  unfold prepare at h
  split at h
  · cases h
  · next testType ht =>
    obtain ⟨bounds, hb, h⟩ := exists_of_bind_eq_ok h
    obtain ⟨cases, hc, h⟩ := exists_of_bind_eq_ok h
    cases h
    exact ⟨rfl, ht, hb, TestCase.forall₂_of_prepareAll hc⟩

theorem forall₂_of_prepareAll {seen : List Number} {groups : List TestGroup}
    {prepared : List PreparedGroup} (h : prepareAll seen groups = .ok prepared) :
    List.Forall₂ Prepares groups prepared := by
  induction groups generalizing seen prepared with
  | nil =>
    cases h
    exact .nil
  | cons g rest ih =>
    unfold prepareAll at h
    split at h
    · cases h
    obtain ⟨p, hp, h⟩ := exists_of_bind_eq_ok h
    obtain ⟨ps, hps, h⟩ := exists_of_bind_eq_ok h
    cases h
    exact .cons (prepares_of_prepare hp) (ih hps)

theorem bound_eq_some {tgId : Number} {name : Text} {o : Option Number} {n : Number}
    (h : bound tgId name o = .ok n) : o = some n := by
  unfold bound at h
  cases o with
  | none => cases h
  | some m =>
    simp only at h
    split at h
    · cases h
      rfl
    · cases h

/-- The bounds of a Monte Carlo group are those of its document. -/
theorem prepareBounds_keeps {g : TestGroup} {b : Bounds}
    (h : g.prepareBounds .monteCarlo = .ok b) :
    g.minOutLen = some b.minOutLen ∧ g.maxOutLen = some b.maxOutLen ∧
      g.outLenIncrement = some b.outLenIncrement := by
  unfold prepareBounds at h
  obtain ⟨minOutLen, hmin, h⟩ := exists_of_bind_eq_ok h
  obtain ⟨maxOutLen, hmax, h⟩ := exists_of_bind_eq_ok h
  obtain ⟨outLenIncrement, hinc, h⟩ := exists_of_bind_eq_ok h
  split at h
  · cases h
  · cases h
    exact ⟨bound_eq_some hmin, bound_eq_some hmax, bound_eq_some hinc⟩

end TestGroup

/-- Every group is prepared for itself. -/
theorem VectorSet.forall₂_of_prepare {vs : VectorSet} {groups : List PreparedGroup}
    (h : vs.prepare = .ok groups) : List.Forall₂ TestGroup.Prepares vs.groups groups :=
  TestGroup.forall₂_of_prepareAll h

/-! ## Lengths -/

/-- The output lengths of the cases, and the bounds of a Monte Carlo group, are all of a kind. -/
structure TestGroup.EveryLength (P : Number → Prop) (g : TestGroup) : Prop where
  outLen : ∀ t ∈ g.tests, P t.outLen
  bounds : TestType.ofName? g.testType = some .monteCarlo →
    (∀ n ∈ g.minOutLen, P n) ∧ (∀ n ∈ g.maxOutLen, P n) ∧ ∀ n ∈ g.outLenIncrement, P n

/-- The output lengths of the cases and the bounds of the group are all of a kind. -/
structure PreparedGroup.EveryLength (P : Number → Prop) (g : PreparedGroup) : Prop where
  outLen : ∀ c ∈ g.cases, P c.outLen
  minOutLen : P g.bounds.minOutLen
  maxOutLen : P g.bounds.maxOutLen
  outLenIncrement : P g.bounds.outLenIncrement

/-- Preparing keeps every length, and the bounds that a functional group gets are zero. -/
theorem TestGroup.Prepares.everyLength {P : Number → Prop} (hzero : P (.int 0)) {g : TestGroup}
    {p : PreparedGroup} (h : g.Prepares p) (hg : g.EveryLength P) : p.EveryLength P := by
  have houts : ∀ c ∈ p.cases, P c.outLen := by
    intro c hc
    obtain ⟨t, ht, hprep⟩ := exists_left_of_forall₂ h.cases hc
    rw [(TestCase.prepare_keeps hprep).2]
    exact hg.outLen t ht
  have hb := h.bounds
  have ht := h.testType
  cases htype : p.testType with
  | functional =>
    rw [htype] at hb
    have hnone : ({} : Bounds) = p.bounds := Except.ok.inj hb
    exact ⟨houts, hnone ▸ hzero, hnone ▸ hzero, hnone ▸ hzero⟩
  | monteCarlo =>
    rw [htype] at hb ht
    obtain ⟨hmin, hmax, hinc⟩ := TestGroup.prepareBounds_keeps hb
    obtain ⟨h₁, h₂, h₃⟩ := hg.bounds ht
    exact ⟨houts, h₁ _ hmin, h₂ _ hmax, h₃ _ hinc⟩

theorem VectorSet.everyLength_of_prepare {P : Number → Prop} (hzero : P (.int 0)) {vs : VectorSet}
    (hvs : ∀ g ∈ vs.groups, g.EveryLength P) {groups : List PreparedGroup}
    (h : vs.prepare = .ok groups) : ∀ p ∈ groups, p.EveryLength P := by
  intro p hp
  obtain ⟨g, hg, hprep⟩ := exists_left_of_forall₂ (VectorSet.forall₂_of_prepare h) hp
  exact hprep.everyLength hzero (hvs g hg)

/-! ## Words -/

/-- The output lengths of the cases and the bounds of a group are words. -/
structure PreparedGroup.HasWords (g : PreparedGroup) : Prop where
  outLen : ∀ c ∈ g.cases, c.outLen.IsWord
  minOutLen : g.bounds.minOutLen.IsWord
  maxOutLen : g.bounds.maxOutLen.IsWord
  outLenIncrement : g.bounds.outLenIncrement.IsWord

/-- The output lengths of all cases, and the bounds of all Monte Carlo groups, are words. -/
def VectorSet.HasWords (vs : VectorSet) : Prop :=
  ∀ g ∈ vs.groups, (∀ t ∈ g.tests, t.outLen.IsWord) ∧
    (TestType.ofName? g.testType = some .monteCarlo →
      (∀ n ∈ g.minOutLen, n.IsWord) ∧ (∀ n ∈ g.maxOutLen, n.IsWord) ∧
        ∀ n ∈ g.outLenIncrement, n.IsWord)

theorem VectorSet.HasWords.prepared {vs : VectorSet} (hw : vs.HasWords)
    {groups : List PreparedGroup} (h : vs.prepare = .ok groups) : ∀ p ∈ groups, p.HasWords := by
  have hall : ∀ g ∈ vs.groups, g.EveryLength Number.IsWord := by
    intro g hg
    obtain ⟨htests, hbounds⟩ := hw g hg
    exact ⟨htests, hbounds⟩
  intro p hp
  obtain ⟨houts, hmin, hmax, hinc⟩ :=
    VectorSet.everyLength_of_prepare ⟨0, Nat.zero_le _, rfl⟩ hall h p hp
  exact ⟨houts, hmin, hmax, hinc⟩

end XofConformance
