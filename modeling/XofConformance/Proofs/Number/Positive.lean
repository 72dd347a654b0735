import Mathlib.Data.Rat.Cast.Order
import Mathlib.Tactic.NormNum
import XofConformance.Proofs.Number.Words

/-!
# Positive numbers

Whatever is not zero or less is more than zero or a NaN, and the binary64 value nearest to a
positive integer is positive.

    n.le (.int 0) = false ↔ n = .float .nan ∨ n.IsPositive              (le_zero_eq_false_iff)
    Binary64.ofInt? k = some x → 0 < k → (Number.float x).IsPositive     (isPositive_of_ofInt?)
-/

namespace XofConformance

namespace Number

variable {n : Number} {d : Dyadic} {k : Int}

/-- The number is more than zero. -/
def IsPositive (n : Number) : Prop := Number.lt (.int 0) n = true

theorem isPositive_int : (Number.int k).IsPositive ↔ 0 < k := lt_int

theorem isPositive_finite : (Number.float (.finite d)).IsPositive ↔ 0 < d.toRat := by
  show decide (Dyadic.ofInt 0 < d) = true ↔ _
  rw [decide_eq_true_iff, ← Dyadic.toRat_lt_toRat_iff, toRat_ofInt, Int.cast_zero]

theorem le_zero_finite : (Number.float (.finite d)).le (.int 0) = true ↔ d.toRat ≤ 0 := by
  have hlt : (Number.float (.finite d)).lt (.int 0) = true ↔ d.toRat < 0 := by
    show decide (d < Dyadic.ofInt 0) = true ↔ _
    rw [decide_eq_true_iff, ← Dyadic.toRat_lt_toRat_iff, toRat_ofInt, Int.cast_zero]
  have hequal : (Number.float (.finite d)).equal (.int 0) = true ↔ d.toRat = 0 := by
    rw [← Int.cast_zero (R := Rat), ← toRat_ofInt, Dyadic.toRat_inj]
    unfold equal worth
    simp
  unfold le
  rw [Bool.or_eq_true, hlt, hequal, le_iff_lt_or_eq]

/-- What is not zero or less is more than zero, or a NaN. -/
theorem le_zero_eq_false_iff :
    n.le (.int 0) = false ↔ n = .float .nan ∨ n.IsPositive := by
  cases n with
  | int k =>
    rw [isPositive_int, Bool.eq_false_iff, Ne, le_int, Int.not_le]
    exact (or_iff_right nofun).symm
  | float x =>
    cases x with
    | nan => exact iff_of_true rfl (Or.inl rfl)
    | infinite negative =>
      cases negative with
      | true => exact iff_of_false nofun (by rintro (h | h) <;> cases h)
      | false => exact iff_of_true rfl (Or.inr rfl)
    | negativeZero => exact iff_of_false nofun (by rintro (h | h) <;> cases h)
    | finite d =>
      rw [isPositive_finite, Bool.eq_false_iff, Ne, le_zero_finite, not_le]
      exact (or_iff_right nofun).symm

end Number

namespace Binary64

variable {num den : Nat} {k : Int} {x : Binary64}

/-- What is at least one is not rounded to zero. -/
theorem roundDiv_pos (hden : 0 < den) (h : den ≤ num) : 0 < roundDiv num den := by
  have hquotient : 0 < num / den := Nat.div_pos h hden
  unfold roundDiv
  dsimp only
  split <;> omega

/-- The last bit of an integer at full precision is no higher than its first one. -/
theorem lastBit_le (num : Nat) : lastBit num 1 ≤ num.log2 := by
  have hone : Nat.log2 1 = 0 := rfl
  unfold lastBit
  simp only [hone, precision, minExponent]
  split <;> omega

/-- A positive integer is cut to no less than one unit of its last bit. -/
theorem scale_le (h : 0 < num) :
    1 * Nat.pow 2 (lastBit num 1).toNat ≤ num * Nat.pow 2 (-lastBit num 1).toNat := by
  have hbit : (lastBit num 1).toNat ≤ num.log2 := by
    have := lastBit_le num
    omega
  calc 1 * Nat.pow 2 (lastBit num 1).toNat
      ≤ Nat.pow 2 num.log2 := by
        rw [Nat.one_mul]
        exact Nat.pow_le_pow_right (by decide) hbit
    _ ≤ num := Nat.log2_self_le (Nat.ne_of_gt h)
    _ ≤ num * Nat.pow 2 (-lastBit num 1).toNat :=
        Nat.le_mul_of_pos_right num (Nat.pow_pos (by decide))

theorem ofRatio_one_cases (h : 0 < num) : ofRatio false num 1 = .infinite false ∨
    ∃ d, ofRatio false num 1 = .finite d ∧ 0 < d.toRat := by
  have hpow : 0 < Nat.pow 2 (lastBit num 1).toNat := Nat.pow_pos (by decide)
  have hround := roundDiv_pos (by rw [Nat.one_mul]; exact hpow) (scale_le h)
  unfold ofRatio
  dsimp only
  rw [if_neg (Nat.ne_of_gt hround)]
  split
  · exact Or.inl rfl
  · refine Or.inr ⟨_, rfl, ?_⟩
    rw [if_neg Bool.false_ne_true, Dyadic.toRat_ofIntWithPrec_eq_mul_two_pow]
    refine mul_pos ?_ (zpow_pos (by norm_num) _)
    exact_mod_cast hround

/-- The value nearest to an integer, if there is one, is the integer rounded. -/
theorem eq_ofRatio_of_ofInt? (h : ofInt? k = some x) : ofRatio (k < 0) k.natAbs 1 = x := by
  -- Unfolded in place, the match would be opened at the quotient and the rounding computed, so the
  -- function is replaced by its definition before it is applied.
  obtain ⟨f, hf⟩ : ∃ f, f = ofInt? := ⟨_, rfl⟩
  rw [← hf] at h
  delta ofInt? at hf
  rw [hf] at h
  revert h
  dsimp only
  generalize ofRatio (decide (k < 0)) k.natAbs 1 = r
  intro h
  cases r with
  | infinite negative => cases h
  | nan => exact Option.some.inj h
  | negativeZero => exact Option.some.inj h
  | finite d => exact Option.some.inj h

/-- The value nearest to a positive integer is positive. -/
theorem isPositive_of_ofInt? (hk : 0 < k) (h : ofInt? k = some x) :
    (Number.float x).IsPositive := by
  have hsign : decide (k < 0) = false := decide_eq_false (by omega)
  have hx := eq_ofRatio_of_ofInt? h
  rw [hsign] at hx
  have hnum : 0 < k.natAbs := by omega
  rcases ofRatio_one_cases hnum with hinfinite | ⟨d, hd, hpos⟩
  · rw [← hx, hinfinite]
    rfl
  · rw [← hx, hd]
    exact Number.isPositive_finite.2 hpos

end Binary64

end XofConformance
