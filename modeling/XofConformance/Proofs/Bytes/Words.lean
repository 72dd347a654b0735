import XofConformance.Proofs.Number.Words

/-!
# Words and their bytes

The integers below 2 ^ 32 and the byte strings of length four are encoded into each other. Whatever
is neither of them is told.

    encodeWord (.int n) = .ok b ↔ decodeWord b = .ok n                          (word_bijection)
-/

namespace XofConformance.Bytes

variable {n : Nat} {i : Int} {b : Bytes}

/-! ## Encoding -/

theorem length_toWord (n : Nat) : (toWord n).length = 4 := rfl

theorem exists_encodeWord_of_range (h : 0 ≤ i ∧ i < 0x100000000) :
    ∃ b, encodeWord (.int i) = .ok b := by
  obtain ⟨n, rfl⟩ := Int.eq_ofNat_of_zero_le h.1
  refine ⟨_, encodeWord_ofNat ?_⟩
  unfold maxWord
  omega

theorem encodeWord_of_not_range (h : ¬ (0 ≤ i ∧ i < 0x100000000)) :
    encodeWord (.int i) = .error (.encoding (.wordRange (.int i))) := by
  have hrange : (Number.le (.int 0) (.int i) && Number.le (.int i) (.int maxWord)) = false := by
    rw [Bool.eq_false_iff, ne_eq, Bool.and_eq_true, Number.le_int, Number.le_int]
    unfold maxWord
    omega
  unfold encodeWord
  rw [hrange]
  rfl

theorem exists_encodeWord_iff : (∃ b, encodeWord (.int i) = .ok b) ↔ 0 ≤ i ∧ i < 0x100000000 := by
  by_cases h : 0 ≤ i ∧ i < 0x100000000
  · exact iff_of_true (exists_encodeWord_of_range h) h
  · rw [encodeWord_of_not_range h]
    exact iff_of_false nofun h

theorem encodeWord_eq_error_iff {f : Fault} : encodeWord (.int i) = .error f ↔
    ¬ (0 ≤ i ∧ i < 0x100000000) ∧ f = .encoding (.wordRange (.int i)) := by
  by_cases h : 0 ≤ i ∧ i < 0x100000000
  · obtain ⟨b, hb⟩ := exists_encodeWord_of_range h
    rw [hb]
    exact iff_of_false nofun fun hf => hf.1 h
  · rw [encodeWord_of_not_range h, Except.error.injEq, eq_comm]
    exact (and_iff_right h).symm

/-! ## Decoding -/

theorem decodeWord_of_length (h : b.length = 4) : decodeWord b = .ok (ofWord b) := if_pos h

theorem decodeWord_of_length_ne (h : b.length ≠ 4) : decodeWord b = .error (.wordLength b.length) :=
  if_neg h

theorem exists_decodeWord_iff : (∃ n, decodeWord b = .ok n) ↔ b.length = 4 := by
  by_cases h : b.length = 4
  · exact iff_of_true ⟨_, decodeWord_of_length h⟩ h
  · rw [decodeWord_of_length_ne h]
    exact iff_of_false nofun h

theorem decodeWord_eq_error_iff {f : EncodingFault} :
    decodeWord b = .error f ↔ b.length ≠ 4 ∧ f = .wordLength b.length := by
  by_cases h : b.length = 4
  · rw [decodeWord_of_length h]
    exact iff_of_false nofun fun hf => hf.1 h
  · rw [decodeWord_of_length_ne h, Except.error.injEq, eq_comm]
    exact (and_iff_right h).symm

/-- The least significant byte comes first. -/
theorem decodeWord_bytes (b₀ b₁ b₂ b₃ : UInt8) : decodeWord [b₀, b₁, b₂, b₃] =
    .ok (b₀.toNat + 0x100 * b₁.toNat + 0x10000 * b₂.toNat + 0x1000000 * b₃.toNat) := by
  rw [decodeWord_of_length rfl]
  simp only [ofWord]
  congr 1
  omega

/-! ## Both ways -/

/-- What is decoded to a word is what the word is encoded in. -/
theorem encodeWord_iff_decodeWord : encodeWord (.int n) = .ok b ↔ decodeWord b = .ok n := by
  constructor
  · intro h
    obtain ⟨-, hhigh⟩ := exists_encodeWord_iff.1 ⟨b, h⟩
    have hn : n ≤ maxWord := by
      unfold maxWord
      omega
    rw [encodeWord_ofNat hn] at h
    cases h
    rw [decodeWord_of_length (length_toWord n), ofWord_toWord n hn]
  · intro h
    have hb := exists_decodeWord_iff.1 ⟨n, h⟩
    rw [decodeWord_of_length hb] at h
    cases h
    rw [encodeWord_ofNat (ofWord_le hb), toWord_ofWord hb]

/-- **Words and bytes.** The integers that can be encoded are those from 0 to 2 ^ 32 - 1, the byte
strings that can be decoded those of length four; encoding and decoding undo each other, with the
least significant byte first; and every other integer and byte string is told. -/
theorem word_bijection :
    (∀ (n : Nat) (b : Bytes), encodeWord (.int n) = .ok b ↔ decodeWord b = .ok n) ∧
    (∀ i : Int, (∃ b, encodeWord (.int i) = .ok b) ↔ 0 ≤ i ∧ i < 0x100000000) ∧
    (∀ b, (∃ n, decodeWord b = .ok n) ↔ b.length = 4) ∧
    (∀ b₀ b₁ b₂ b₃ : UInt8, decodeWord [b₀, b₁, b₂, b₃] =
      .ok (b₀.toNat + 0x100 * b₁.toNat + 0x10000 * b₂.toNat + 0x1000000 * b₃.toNat)) ∧
    (∀ (i : Int) f, encodeWord (.int i) = .error f ↔
      ¬ (0 ≤ i ∧ i < 0x100000000) ∧ f = .encoding (.wordRange (.int i))) ∧
    ∀ b f, decodeWord b = .error f ↔ b.length ≠ 4 ∧ f = .wordLength b.length :=
  ⟨fun _ _ => encodeWord_iff_decodeWord, fun _ => exists_encodeWord_iff,
    fun _ => exists_decodeWord_iff, decodeWord_bytes, fun _ _ => encodeWord_eq_error_iff,
    fun _ _ => decodeWord_eq_error_iff⟩

/-- The greatest word. -/
example : encodeWord (.int 0xFFFFFFFF) = .ok [0xFF, 0xFF, 0xFF, 0xFF] := rfl

end XofConformance.Bytes
