import XofConformance.Proofs.Comparison.Entries

/-!
# When tests agree

What comparing two tests comes to. If the expected test has rounds, the other one has as many, and
they are equal one by one; otherwise its digest and its output length are equal, as far as the
expected test has them. Digests are compared as text in lower case, and a field that is not there
counts as null.

    firstDifference i gs es = none ↔ the parts are equal one by one  (firstDifference_eq_none_iff)
    compareTest actual expected = .ok none ↔ Agrees actual expected          (compareTest_spec)
-/

namespace XofConformance.Comparison

open Json (sameKey)

variable {actual expected : Json}

/-- The test is as expected. -/
def Agrees (actual expected : Json) : Prop :=
  match expected.field? "resultsArray" with
  | some rounds => ∃ rs es, actual.field "resultsArray" = .array rs ∧ rounds = .array es ∧
      List.Forall₂ (fun r e => deepEqual r e = true) rs es
  | none =>
    (∀ md, expected.field? digestKey = some md →
      Text.lower (actual.field digestKey).shown = Text.lower md.shown) ∧
    ∀ n, expected.field? "outLen" = some n →
      deepEqual (.object [("outLen", actual.field "outLen")]) (.object [("outLen", n)]) = true

/-! ## Rounds -/

theorem firstDifference_eq_none_iff {gs es : List Json} (h : gs.length = es.length) (i : Nat) :
    firstDifference i gs es = none ↔ List.Forall₂ (fun g e => deepEqual g e = true) gs es := by
  induction gs generalizing es i with
  | nil =>
    obtain rfl := List.length_eq_zero_iff.1 h.symm
    exact iff_of_true rfl .nil
  | cons g rest ih =>
    cases es with
    | nil => cases h
    | cons e es =>
      have hrest : rest.length = es.length := Nat.succ.inj h
      unfold firstDifference
      rw [List.forall₂_cons]
      by_cases hg : deepEqual g e = true
      · rw [if_pos hg, ih hrest]
        exact (and_iff_right hg).symm
      · rw [if_neg hg]
        exact iff_of_false nofun fun h => hg h.1

theorem compareRounds_spec (got : Json) (es : List Json) :
    ∃ m, compareRounds got (.array es) = .ok m ∧ (m = none ↔
      ∃ rs, got = .array rs ∧ List.Forall₂ (fun r e => deepEqual r e = true) rs es) := by
  unfold compareRounds
  cases hitems : got.items? with
  | none =>
    refine ⟨_, rfl, iff_of_false nofun ?_⟩
    rintro ⟨rs, rfl, -⟩
    cases hitems
  | some gs =>
    have harray : got = .array gs := by
      cases got <;> cases hitems
      rfl
    show ∃ m, (if gs.length ≠ es.length then _ else _) = Except.ok m ∧ _
    by_cases hlength : gs.length = es.length
    · rw [if_neg (not_not_intro hlength)]
      refine ⟨_, rfl, ?_⟩
      rw [Option.map_eq_none_iff, firstDifference_eq_none_iff hlength]
      constructor
      · intro h
        exact ⟨gs, harray, h⟩
      · rintro ⟨rs, hrs, h⟩
        rw [harray] at hrs
        cases hrs
        exact h
    · rw [if_pos hlength]
      refine ⟨_, rfl, iff_of_false nofun ?_⟩
      rintro ⟨rs, hrs, h⟩
      rw [harray] at hrs
      cases hrs
      exact hlength h.length_eq

/-! ## Fields -/

/-- Under the key of a digest, values are equal as text in lower case. -/
theorem deepEqual_digest {a b : Json} :
    deepEqual (.object [(digestKey, a)]) (.object [(digestKey, b)]) = true ↔
      Text.lower a.shown = Text.lower b.shown := by
  simp [deepEqual, normal, normalFields, Json.equal, Json.same, Json.sameFields, Json.lookup]

theorem compareFields_eq_none_iff {keys : List Text} : compareFields actual expected keys = none ↔
    ∀ key ∈ keys, ∀ e, expected.field? key = some e →
      deepEqual (.object [(key, actual.field key)]) (.object [(key, e)]) = true := by
  unfold compareFields
  rw [Option.map_eq_none_iff, List.find?_eq_none]
  refine forall₂_congr fun key _ => ?_
  cases expected.field? key with
  | none => exact iff_of_true nofun nofun
  | some e => simp

/-! ## Tests -/

theorem field_of_field? {v w : Json} {key : Text} (h : v.field? key = some w) :
    v.field key = w := by
  unfold Json.field
  rw [h]
  rfl

/-- Comparing a test gives a result, and finds no difference if and only if the test agrees. -/
theorem compareTest_spec (actual : Json)
    (hrounds : ∀ v, expected.field? "resultsArray" = some v → ∃ es, v = .array es) :
    ∃ m, compareTest actual expected = .ok m ∧ (m = none ↔ Agrees actual expected) := by
  unfold compareTest Agrees
  cases hfield : expected.field? "resultsArray" with
  | none =>
    have hnull : expected.field "resultsArray" = .null := by
      unfold Json.field
      rw [hfield]
      rfl
    rw [hnull]
    refine ⟨_, rfl, ?_⟩
    rw [compareFields_eq_none_iff]
    simp only [List.forall_mem_cons, List.not_mem_nil, false_imp_iff, implies_true, and_true,
      deepEqual_digest]
  | some v =>
    obtain ⟨es, rfl⟩ := hrounds v hfield
    rw [field_of_field? hfield]
    obtain ⟨m, hm, hnone⟩ := compareRounds_spec (actual.field "resultsArray") es
    refine ⟨m, hm, hnone.trans ⟨?_, ?_⟩⟩
    · rintro ⟨rs, hrs, hall⟩
      exact ⟨rs, es, hrs, rfl, hall⟩
    · rintro ⟨rs, es', hrs, hes, hall⟩
      cases hes
      exact ⟨rs, hrs, hall⟩

end XofConformance.Comparison
