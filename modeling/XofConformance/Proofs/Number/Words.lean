import XofConformance.Bytes.Codec

/-!
# Integers and words

Numbers that are integers compare as integers, and an integer that fits into a word is encoded in
four bytes that spell it.

    encodeWord (.int n) = .ok (toWord n)          for n ≤ maxWord        (encodeWord_ofNat)
    toWord (ofWord b) = b                         for four bytes b       (toWord_ofWord)
-/

namespace XofConformance

/-! ## Comparison -/

namespace Number

theorem toRat_ofInt (a : Int) : (Dyadic.ofInt a).toRat = a := Dyadic.toRat_intCast a

theorem ofInt_lt_ofInt {a b : Int} : Dyadic.ofInt a < Dyadic.ofInt b ↔ a < b := by
  rw [← Dyadic.toRat_lt_toRat_iff, toRat_ofInt, toRat_ofInt, Rat.intCast_lt_intCast]

theorem ofInt_inj {a b : Int} : Dyadic.ofInt a = Dyadic.ofInt b ↔ a = b := by
  rw [← Dyadic.toRat_inj, toRat_ofInt, toRat_ofInt, Rat.intCast_inj]

theorem lt_int {a b : Int} : Number.lt (.int a) (.int b) = true ↔ a < b := by
  show decide (Dyadic.ofInt a < Dyadic.ofInt b) = true ↔ _
  rw [decide_eq_true_iff, ofInt_lt_ofInt]

theorem equal_int {a b : Int} : Number.equal (.int a) (.int b) = true ↔ a = b := by
  unfold equal worth
  simp [ofInt_inj]

theorem le_int {a b : Int} : Number.le (.int a) (.int b) = true ↔ a ≤ b := by
  unfold le
  rw [Bool.or_eq_true, lt_int, equal_int]
  omega

theorem isZero_int {a : Int} : (Number.int a).isZero = true ↔ a = 0 := equal_int

/-- The number is an integer that fits into a word. -/
def IsWord (n : Number) : Prop := ∃ k : Nat, k ≤ Bytes.maxWord ∧ n = .int k

/-- The word that a number is. -/
def word : Number → Nat
  | .int n => n.toNat
  | .float _ => 0

theorem IsWord.eq_word {n : Number} (h : n.IsWord) : n = .int n.word := by
  obtain ⟨k, -, rfl⟩ := h
  rfl

theorem IsWord.word_le {n : Number} (h : n.IsWord) : n.word ≤ Bytes.maxWord := by
  obtain ⟨k, hk, rfl⟩ := h
  exact hk

theorem IsWord.bytes_eq {n : Number} (h : n.IsWord) : n.bytes = .int (n.word / 8 : Nat) := by
  obtain ⟨k, -, rfl⟩ := h
  show Number.int ((k : Int).fdiv 8) = .int ((k / 8 : Nat) : Int)
  rw [Int.fdiv_eq_ediv_of_nonneg _ (by omega)]
  rfl

end Number

/-! ## Words -/

namespace Bytes

theorem encodeWord_ofNat {n : Nat} (h : n ≤ maxWord) : encodeWord (.int n) = .ok (toWord n) := by
  have hlow : Number.le (.int 0) (.int (n : Int)) = true := Number.le_int.2 (by omega)
  have hhigh : Number.le (.int (n : Int)) (.int maxWord) = true := Number.le_int.2 (by omega)
  unfold encodeWord
  rw [hlow, hhigh]
  rfl

theorem encodeWord_word {n : Number} (h : n.IsWord) : encodeWord n = .ok (toWord n.word) := by
  rw [h.eq_word]
  exact encodeWord_ofNat h.word_le

theorem ofWord_le {b : Bytes} (h : b.length = 4) : ofWord b ≤ maxWord := by
  match b, h with
  | [b₀, b₁, b₂, b₃], _ =>
    have h₀ := b₀.toNat_lt
    have h₁ := b₁.toNat_lt
    have h₂ := b₂.toNat_lt
    have h₃ := b₃.toNat_lt
    simp only [ofWord, maxWord]
    omega

theorem toWord_ofWord {b : Bytes} (h : b.length = 4) : toWord (ofWord b) = b := by
  match b, h with
  | [b₀, b₁, b₂, b₃], _ =>
    have h₀ := b₀.toNat_lt
    have h₁ := b₁.toNat_lt
    have h₂ := b₂.toNat_lt
    have h₃ := b₃.toNat_lt
    simp only [toWord, ofWord, List.cons.injEq, ← UInt8.toNat_inj, UInt8.toNat_ofNat', and_true]
    omega

/-- A byte string is empty if and only if it has no digits. -/
theorem toHex_eq_nil_iff {b : Bytes} : b.toHex = [] ↔ b = [] := by
  constructor
  · intro h
    have hb := ofHex_toHex b
    rw [h] at hb
    exact (Option.some.inj hb).symm
  · rintro rfl
    rfl

end Bytes

end XofConformance
