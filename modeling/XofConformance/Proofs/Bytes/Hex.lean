import XofConformance.Bytes.Codec
import XofConformance.Proofs.Number.Words

/-!
# What hexadecimal digits spell

A text spells a byte string if it is the digits of the byte string, some of them perhaps in upper
case. Decoding accepts exactly the texts that spell one.

    decodeHex t = .ok b ↔ b.SpelledBy t                                  (decodeHex_iff)
-/

namespace XofConformance

/-- The code point is a space or something visible, and ASCII. -/
def Text.IsPlain (c : CodePoint) : Prop := 0x20 ≤ c ∧ c ≤ 0x7E

instance (c : CodePoint) : Decidable (Text.IsPlain c) := inferInstanceAs (Decidable (_ ∧ _))

theorem Text.IsPlain.lt {c : CodePoint} (h : IsPlain c) : c < 0x80 :=
  Nat.lt_of_le_of_lt h.2 (by decide)

/-- Hexadecimal digits are plain. -/
theorem Text.isPlain_of_mem_ofHex {width n : Nat} {c : CodePoint} (h : c ∈ ofHex width n) :
    IsPlain c := by
  have hdigit : ∀ k, k < 16 → IsPlain (hexDigit k) := by decide
  induction width generalizing n with
  | zero => exact absurd h List.not_mem_nil
  | succ width ih =>
    rcases List.mem_append.1 h with h | h
    · exact ih h
    · obtain rfl := List.mem_singleton.1 h
      exact hdigit _ (Nat.mod_lt _ (by decide))

namespace Bytes

/-- The lowercase form of a hexadecimal digit. -/
def lowerDigit (c : CodePoint) : CodePoint := if 0x41 ≤ c ∧ c ≤ 0x46 then c + 0x20 else c

/-- The digits of the byte string, in either case. -/
def SpelledBy (b : Bytes) (t : Text) : Prop := t.map lowerDigit = b.toHex

variable {t : Text} {b : Bytes} {c : CodePoint} {v : Nat}

/-- A digit has a value if its lowercase form is the digit of that value. -/
theorem hexValue?_eq_some_iff {c : Nat} :
    Text.hexValue? c = some v ↔ v < 16 ∧ lowerDigit c = Text.hexDigit v := by
  have hvalue : Text.hexValue? c = if 48 ≤ c ∧ c ≤ 57 then some (c - 48)
      else if 97 ≤ c ∧ c ≤ 102 then some (c - 97 + 10)
      else if 65 ≤ c ∧ c ≤ 70 then some (c - 65 + 10) else none := rfl
  have hlower : lowerDigit c = (if 65 ≤ c ∧ c ≤ 70 then c + 32 else c : Nat) := rfl
  have hdigit : Text.hexDigit v = (if v < 10 then 48 + v else 97 + (v - 10) : Nat) := rfl
  have hsame : lowerDigit c = Text.hexDigit v ↔ (if 65 ≤ c ∧ c ≤ 70 then c + 32 else c : Nat) =
      (if v < 10 then 48 + v else 97 + (v - 10) : Nat) := by rw [← hlower, ← hdigit]
  rw [hvalue, hsame]
  split
  · rw [Option.some_inj]
    split <;> split <;> omega
  split
  · rw [Option.some_inj]
    split <;> split <;> omega
  split
  · rw [Option.some_inj]
    split <;> omega
  · simp only [reduceCtorEq, false_iff, not_and]
    split <;> omega

theorem isPlain_of_mem_toHex (h : c ∈ b.toHex) : Text.IsPlain c := by
  obtain ⟨x, -, hx⟩ := List.mem_flatMap.1 h
  exact Text.isPlain_of_mem_ofHex hx

theorem toHex_cons (x : UInt8) (rest : Bytes) :
    toHex (x :: rest) =
      Text.hexDigit (x.toNat / 16) :: Text.hexDigit (x.toNat % 16) :: toHex rest := by
  have hx := x.toNat_lt
  have hhigh : x.toNat / 16 % 16 = x.toNat / 16 := Nat.mod_eq_of_lt (by omega)
  show Text.hexDigit (x.toNat / 16 % 16) :: Text.hexDigit (x.toNat % 16) :: toHex rest = _
  rw [hhigh]

/-- Reading pairs of digits gives the bytes that they spell. -/
theorem ofHex?_eq_some_iff : ∀ {t : Text} {b : Bytes}, ofHex? t = some b ↔ b.SpelledBy t
  | [], b => by
    unfold ofHex? SpelledBy
    rw [Option.some_inj, eq_comm, List.map_nil, eq_comm (a := []), toHex_eq_nil_iff]
  | [c], b => by
    unfold ofHex? SpelledBy
    cases b with
    | nil => simp [toHex]
    | cons x rest => simp [toHex_cons]
  | high :: low :: rest, b => by
    have ih := fun {b : Bytes} => ofHex?_eq_some_iff (t := rest) (b := b)
    unfold ofHex?
    constructor
    · intro h
      split at h
      · next vh vl b' hh hl hr =>
        cases h
        obtain ⟨hvh, hhigh⟩ := hexValue?_eq_some_iff.1 hh
        obtain ⟨hvl, hlow⟩ := hexValue?_eq_some_iff.1 hl
        have hx : (UInt8.ofNat (vh * 16 + vl)).toNat = vh * 16 + vl := by
          rw [UInt8.toNat_ofNat']
          omega
        have hrest : rest.map lowerDigit = b'.toHex := ih.1 hr
        unfold SpelledBy
        rw [List.map_cons, List.map_cons, toHex_cons, hx, hhigh, hlow, hrest,
          show (vh * 16 + vl) / 16 = vh by omega, show (vh * 16 + vl) % 16 = vl by omega]
      · cases h
    · intro h
      unfold SpelledBy at h
      cases b with
      | nil => cases h
      | cons x b' =>
        have hx := x.toNat_lt
        rw [List.map_cons, List.map_cons, toHex_cons, List.cons.injEq, List.cons.injEq] at h
        obtain ⟨hhigh, hlow, hrest⟩ := h
        have hh : Text.hexValue? high = some (x.toNat / 16) :=
          hexValue?_eq_some_iff.2 ⟨by omega, hhigh⟩
        have hl : Text.hexValue? low = some (x.toNat % 16) :=
          hexValue?_eq_some_iff.2 ⟨by omega, hlow⟩
        rw [hh, hl, ih.2 hrest]
        show some (UInt8.ofNat (x.toNat / 16 * 16 + x.toNat % 16) :: b') = _
        rw [show x.toNat / 16 * 16 + x.toNat % 16 = x.toNat by omega, UInt8.ofNat_toNat]

theorem decodeHex_iff : decodeHex t = .ok b ↔ b.SpelledBy t :=
  decodeHex_eq_ok_iff.trans ofHex?_eq_some_iff

/-- A text that spells a byte string is plain. -/
theorem SpelledBy.isPlain (h : b.SpelledBy t) : ∀ c ∈ t, Text.IsPlain c := by
  intro c hc
  have hlower : lowerDigit c ∈ t.map lowerDigit := List.mem_map_of_mem hc
  rw [show t.map lowerDigit = b.toHex from h] at hlower
  have hplain : Text.IsPlain (lowerDigit c) := isPlain_of_mem_toHex hlower
  unfold lowerDigit at hplain
  by_cases hupper : 0x41 ≤ c ∧ c ≤ 0x46
  · exact ⟨Nat.le_trans (by decide) hupper.1, Nat.le_trans hupper.2 (by decide)⟩
  · rwa [if_neg hupper] at hplain

theorem SpelledBy.unique {b' : Bytes} (h : b.SpelledBy t) (h' : b'.SpelledBy t) : b = b' := by
  have hb := decodeHex_iff.2 h
  rw [decodeHex_iff.2 h'] at hb
  cases hb
  rfl

end Bytes

end XofConformance
