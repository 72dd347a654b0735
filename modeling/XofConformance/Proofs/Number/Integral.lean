import Mathlib.Data.Rat.Floor
import XofConformance.Proofs.Number.Words

/-!
# Integers in either form

A number can be worth an integer without being written as one: `32.0` is. Comparisons and bit counts
see only what a number is worth. Its encoding as a word also sees how it is written.

    n.isIntegral = true → ∃ k, n.IsWorth k                              (exists_isWorth)
    encodeWord (.float x) = .error (.defect .fractionalWord)            (encodeWord_float)
-/

namespace XofConformance

namespace Number

variable {n : Number} {k j : Int}

/-- The number is worth an integer, in whichever form it is written. -/
def IsWorth (n : Number) (k : Int) : Prop := n.worth = .finite (Dyadic.ofInt k)

theorem isWorth_int (k : Int) : (Number.int k).IsWorth k := rfl

/-! ## Integral values -/

/-- A dyadic value that counts as an integer is that integer. -/
theorem eq_ofInt_of_integer? {d : Dyadic} (h : Binary64.integer? d = some k) :
    d = Dyadic.ofInt k := by
  rw [← Dyadic.toRat_inj, toRat_ofInt]
  cases d with
  | zero =>
    cases h
    rfl
  | ofOdd m e hodd =>
    dsimp only [Binary64.integer?] at h
    by_cases he : e ≤ 0
    · rw [if_pos he] at h
      cases h
      obtain ⟨i, hi⟩ := Int.eq_ofNat_of_zero_le (show 0 ≤ -e by omega)
      rw [Dyadic.toRat_ofOdd_eq_mul_two_pow, hi]
      simp
    · rw [if_neg he] at h
      cases h

/-- What counts as an integer is worth one. -/
theorem exists_isWorth (h : n.isIntegral = true) : ∃ k, n.IsWorth k := by
  obtain ⟨k, hk⟩ := Option.isSome_iff_exists.1 h
  refine ⟨k, ?_⟩
  cases n with
  | int m =>
    cases hk
    rfl
  | float x =>
    cases x with
    | nan => cases hk
    | infinite negative => cases hk
    | negativeZero =>
      cases hk
      rfl
    | finite d => exact congrArg Worth.finite (eq_ofInt_of_integer? hk)

/-- An integer, as a dyadic value, counts as one. -/
theorem isSome_integer?_ofInt (k : Int) :
    (Binary64.integer? (Dyadic.ofInt k)).isSome = true := by
  unfold Dyadic.ofInt Dyadic.ofIntWithPrec
  split
  · rfl
  · simp [Binary64.integer?]

/-- What counts as an integer is what is worth one. -/
theorem isIntegral_iff : n.isIntegral = true ↔ ∃ k, n.IsWorth k := by
  refine ⟨exists_isWorth, ?_⟩
  rintro ⟨k, hk⟩
  cases n with
  | int m => rfl
  | float x =>
    cases x with
    | nan => cases hk
    | infinite negative => cases hk
    | negativeZero => rfl
    | finite d =>
      obtain rfl : d = Dyadic.ofInt k := Worth.finite.inj hk
      exact isSome_integer?_ofInt k

/-! ## Comparison -/

theorem IsWorth.lt_iff (h : n.IsWorth k) {m : Number} (hm : m.IsWorth j) :
    n.lt m = true ↔ k < j := by
  unfold lt
  rw [h, hm]
  exact lt_int

theorem IsWorth.le_iff (h : n.IsWorth k) {m : Number} (hm : m.IsWorth j) :
    n.le m = true ↔ k ≤ j := by
  unfold le lt equal
  rw [h, hm]
  exact le_int

/-! ## Words -/

/-- The number is worth an integer that fits into a word. -/
def FitsWord (n : Number) : Prop := ∃ k : Nat, k ≤ Bytes.maxWord ∧ n.IsWorth k

theorem fitsWord_zero : (Number.int 0).FitsWord := ⟨0, Nat.zero_le _, rfl⟩

/-- An integer is worth only itself, so one that fits into a word is a word. -/
theorem FitsWord.isWord (h : (Number.int k).FitsWord) : (Number.int k).IsWord := by
  obtain ⟨j, hj, hk⟩ := h
  exact ⟨j, hj, congrArg Number.int (ofInt_inj.1 (Worth.finite.inj hk))⟩

/-- The whole bytes in a number of bits are worth an eighth of it. -/
theorem IsWorth.bytes (h : n.IsWorth k) : n.bytes.IsWorth (k / 8) := by
  cases n with
  | int m =>
    obtain rfl := ofInt_inj.1 (Worth.finite.inj h)
    exact congrArg (fun i => Worth.finite (Dyadic.ofInt i))
      (Int.fdiv_eq_ediv_of_nonneg m (by decide))
  | float x =>
    cases x with
    | nan => cases h
    | infinite negative => cases h
    | negativeZero =>
      have hk : k = 0 := (ofInt_inj.1 (Worth.finite.inj h)).symm
      subst hk
      rfl
    | finite d =>
      obtain rfl : d = Dyadic.ofInt k := Worth.finite.inj h
      have hfloor : ((Dyadic.ofInt k).toRat / 8).floor = k / 8 := by
        rw [toRat_ofInt]
        exact Rat.floor_intCast_div_natCast k 8
      exact congrArg (fun i => Worth.finite (Dyadic.ofInt i)) hfloor

theorem FitsWord.bytes (h : n.FitsWord) : n.bytes.FitsWord := by
  obtain ⟨k, hk, hn⟩ := h
  exact ⟨k / 8, by omega, hn.bytes⟩

end Number

/-! ## Encoding -/

/-- Whatever fits into a word passes for one, but only an integer has the bytes of one. -/
theorem Bytes.encodeWord_float {x : Binary64} (h : (Number.float x).FitsWord) :
    encodeWord (.float x) = .error (.defect .fractionalWord) := by
  obtain ⟨k, hk, hx⟩ := h
  have hlow : Number.le (.int 0) (.float x) = true :=
    ((Number.isWorth_int 0).le_iff hx).2 (by omega)
  have hhigh : Number.le (.float x) (.int maxWord) = true :=
    (hx.le_iff (Number.isWorth_int maxWord)).2 (by omega)
  unfold encodeWord
  rw [hlow, hhigh]
  rfl

end XofConformance
