import XofConformance.Proofs.Bytes.Hex

/-!
# Texts of hexadecimal digits

Decoding is strict: a text decodes exactly if it is an even number of hexadecimal digits, each in
either case, and what it decodes to has these digits, in lower case. Any other text is told, an odd
length before a wrong digit.

    (∃ b, decodeHex t = .ok b) ↔ t.length % 2 = 0 ∧ ∀ c ∈ t, IsHexDigit c     (decodeHex_decides)
-/

namespace XofConformance.Bytes

/-- The code point is one of `0` to `9`, `a` to `f` and `A` to `F`. -/
def IsHexDigit (c : CodePoint) : Prop :=
  (0x30 ≤ c ∧ c ≤ 0x39) ∨ (0x61 ≤ c ∧ c ≤ 0x66) ∨ (0x41 ≤ c ∧ c ≤ 0x46)

instance (c : CodePoint) : Decidable (IsHexDigit c) := inferInstanceAs (Decidable (_ ∨ _))

variable {c : CodePoint} {t : Text} {b : Bytes} {f : EncodingFault}

theorem isSome_hexValue?_iff : (Text.hexValue? c).isSome = true ↔ IsHexDigit c := by
  unfold Text.hexValue? IsHexDigit
  split
  · next h => exact iff_of_true rfl (.inl h)
  split
  · next h => exact iff_of_true rfl (.inr (.inl h))
  split
  · next h => exact iff_of_true rfl (.inr (.inr h))
  · next hdigit hlower hupper =>
    exact iff_of_false nofun fun h => h.elim hdigit fun h => h.elim hlower hupper

theorem isSome_ofHex?_iff :
    ∀ {t : Text}, (ofHex? t).isSome = true ↔ t.length % 2 = 0 ∧ ∀ c ∈ t, IsHexDigit c
  | [] => iff_of_true rfl ⟨rfl, List.forall_mem_nil _⟩
  | [_] => iff_of_false nofun fun h => nomatch h.1
  | high :: low :: rest => by
    have ih := isSome_ofHex?_iff (t := rest)
    have hlength : (high :: low :: rest).length % 2 = rest.length % 2 := by
      rw [List.length_cons, List.length_cons]
      omega
    have hpair : (ofHex? (high :: low :: rest)).isSome = true ↔
        (Text.hexValue? high).isSome = true ∧ (Text.hexValue? low).isSome = true ∧
          (ofHex? rest).isSome = true := by
      rw [ofHex?]
      cases Text.hexValue? high <;> cases Text.hexValue? low <;> cases ofHex? rest <;> simp
    rw [hpair, isSome_hexValue?_iff, isSome_hexValue?_iff, ih, hlength, List.forall_mem_cons,
      List.forall_mem_cons]
    constructor
    · rintro ⟨hhigh, hlow, hrest⟩
      exact ⟨hrest.1, hhigh, hlow, hrest.2⟩
    · rintro ⟨hlength, hhigh, hlow, hrest⟩
      exact ⟨hhigh, hlow, hlength, hrest⟩

theorem exists_decodeHex_iff :
    (∃ b, decodeHex t = .ok b) ↔ t.length % 2 = 0 ∧ ∀ c ∈ t, IsHexDigit c := by
  simp only [decodeHex_eq_ok_iff, ← isSome_ofHex?_iff, Option.isSome_iff_exists]

/-- Only the length and the alphabet are told, the length first. -/
theorem decodeHex_eq_error_iff : decodeHex t = .error f ↔
    (t.length % 2 = 1 ∧ f = .oddLength t.length) ∨
      (t.length % 2 = 0 ∧ (∃ c ∈ t, ¬ IsHexDigit c) ∧ f = .alphabet) := by
  unfold decodeHex
  by_cases hlength : t.length % 2 = 0
  · have hdigits : ofHex? t = none ↔ ∃ c ∈ t, ¬ IsHexDigit c := by
      rw [← Option.not_isSome_iff_eq_none, isSome_ofHex?_iff, and_iff_right hlength]
      simp only [Classical.not_forall, exists_prop]
    rw [if_neg (not_not_intro hlength), ← hdigits]
    cases ofHex? t <;> simp [hlength, eq_comm]
  · rw [if_pos hlength]
    simp [show t.length % 2 = 1 by omega, eq_comm]

/-- **Hexadecimal texts.** A text decodes exactly if it is an even number of hexadecimal digits; any
other text is told as an odd length or a wrong digit. What a text decodes to has its digits, in
lower case, and half a byte for each of them; and a byte string is decoded from its own digits. -/
theorem decodeHex_decides (t : Text) :
    ((∃ b, decodeHex t = .ok b) ↔ t.length % 2 = 0 ∧ ∀ c ∈ t, IsHexDigit c) ∧
    (∀ f, decodeHex t = .error f ↔
      (t.length % 2 = 1 ∧ f = .oddLength t.length) ∨
        (t.length % 2 = 0 ∧ (∃ c ∈ t, ¬ IsHexDigit c) ∧ f = .alphabet)) ∧
    (∀ b, decodeHex t = .ok b → b.toHex = t.map lowerDigit ∧ b.bitLength = 4 * t.length) ∧
    ∀ b, decodeHex b.toHex = .ok b := by
  refine ⟨exists_decodeHex_iff, fun f => decodeHex_eq_error_iff, fun b h => ?_, fun b => ?_⟩
  · have hlength : t.length = 2 * b.length := length_of_ofHex? (decodeHex_eq_ok_iff.1 h)
    refine ⟨(decodeHex_iff.1 h).symm, ?_⟩
    unfold bitLength
    omega
  · exact decodeHex_eq_ok_iff.2 (ofHex_toHex b)

/-- Digits in mixed case. -/
theorem decodeHex_decides_mixed : decodeHex "0AbCdE" = .ok [0x0A, 0xBC, 0xDE] ∧
    toHex [0x0A, 0xBC, 0xDE] = Text.ofString "0abcde" ∧ bitLength [0x0A, 0xBC, 0xDE] = 24 := by
  have hdecode : decodeHex "0AbCdE" = .ok [0x0A, 0xBC, 0xDE] := rfl
  obtain ⟨hdigits, hlength⟩ := (decodeHex_decides "0AbCdE").2.2.1 _ hdecode
  exact ⟨hdecode, hdigits, hlength⟩

/-- A line feed at the end is no digit, nor is a digit of another script. -/
example : decodeHex "0\n" = .error .alphabet ∧ decodeHex "0\u0663" = .error .alphabet ∧
    decodeHex "abc\n0" = .error (.oddLength 5) := ⟨rfl, rfl, rfl⟩

end XofConformance.Bytes
