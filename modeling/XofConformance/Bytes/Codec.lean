import XofConformance.Fault
import XofConformance.Bytes.Hex
import XofConformance.Bytes.Word32

/-!
# Encodings with their faults

    decodeHex t = .ok b ↔ ofHex? t = some b                              (decodeHex_eq_ok_iff)
-/

namespace XofConformance.Bytes

/-! ## Algorithm -/

/-- The byte string that a text spells; an odd length is told before a wrong digit. -/
def decodeHex (t : Text) : Except EncodingFault Bytes :=
  if t.length % 2 ≠ 0 then .error (.oddLength t.length)
  else match ofHex? t with
    | some b => .ok b
    | none => .error .alphabet

/-- The four bytes of a number that is a word. -/
def encodeWord (n : Number) : Except Fault Bytes :=
  if Number.le (.int 0) n && Number.le n (.int maxWord) then
    match n with
    | .int k => .ok (toWord k.toNat)
    | .float _ => .error (.defect .fractionalWord)
  else .error (.encoding (.wordRange n))

/-- The word that four bytes spell. -/
def decodeWord (b : Bytes) : Except EncodingFault Nat :=
  if b.length = 4 then .ok (ofWord b) else .error (.wordLength b.length)

/-! ## Lemmas -/

theorem length_of_ofHex? : ∀ {t : Text} {b : Bytes}, ofHex? t = some b → t.length = 2 * b.length
  | [], b, h => by simp only [ofHex?, Option.some.injEq] at h; subst h; rfl
  | [_], _, h => by simp [ofHex?] at h
  | x :: y :: rest, b, h => by
    unfold ofHex? at h
    split at h
    · next c _ _ _ _ hr =>
      have ih := length_of_ofHex? hr
      simp only [Option.some.injEq] at h
      subst h
      simp only [List.length_cons] at *
      omega
    · simp at h

theorem decodeHex_eq_ok_iff {t : Text} {b : Bytes} : decodeHex t = .ok b ↔ ofHex? t = some b := by
  unfold decodeHex
  constructor
  · intro h
    split at h
    · simp at h
    · split at h <;> simp_all
  · intro h
    have := length_of_ofHex? h
    rw [if_neg (by omega), h]

end XofConformance.Bytes
