import XofConformance.Bytes.Basic

/-!
# Little-endian words of 32 bits

    ofWord (toWord n) = n                       for n < 2 ^ 32           (ofWord_toWord)
-/

namespace XofConformance.Bytes

/-! ## Algorithm -/

/-- The greatest value of a word. -/
def maxWord : Nat := 0xFFFFFFFF

/-- The four bytes of a word, least significant first. -/
def toWord (n : Nat) : Bytes :=
  [UInt8.ofNat n, UInt8.ofNat (n / 0x100), UInt8.ofNat (n / 0x10000), UInt8.ofNat (n / 0x1000000)]

/-- The number that bytes spell, least significant first. -/
def ofWord : Bytes → Nat
  | [] => 0
  | b :: rest => b.toNat + 0x100 * ofWord rest

/-! ## Lemmas -/

theorem ofWord_toWord (n : Nat) (h : n ≤ maxWord) : ofWord (toWord n) = n := by
  simp only [toWord, ofWord, UInt8.toNat_ofNat', maxWord] at *
  omega

end XofConformance.Bytes
