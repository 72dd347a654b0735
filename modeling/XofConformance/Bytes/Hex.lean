import XofConformance.Text.Basic
import XofConformance.Bytes.Basic

/-!
# Hexadecimal

A byte is written as two lowercase digits, high half first. Reading accepts either case, an even
number of digits and nothing else; an odd length is told before a wrong digit.

    ofHex? (toHex b) = some b                                            (ofHex_toHex)
-/

namespace XofConformance.Bytes

/-! ## Algorithm -/

/-- The hexadecimal digits of a byte string. -/
def toHex (b : Bytes) : Text := b.flatMap fun x => Text.ofHex 2 x.toNat

/-- The byte string that pairs of hexadecimal digits spell. -/
def ofHex? : Text → Option Bytes
  | [] => some []
  | [_] => none
  | high :: low :: rest =>
    match Text.hexValue? high, Text.hexValue? low, ofHex? rest with
    | some h, some l, some b => some (UInt8.ofNat (h * 16 + l) :: b)
    | _, _, _ => none

/-! ## Lemmas -/

theorem hexValue?_hexDigit : ∀ n, n < 16 → Text.hexValue? (Text.hexDigit n) = some n := by
  decide

theorem ofHex?_pair (n : Nat) (h : n < 256) (rest : Text) :
    ofHex? (Text.ofHex 2 n ++ rest) = (ofHex? rest).map (UInt8.ofNat n :: ·) := by
  have hh := hexValue?_hexDigit (n / 16 % 16) (by omega)
  have hl := hexValue?_hexDigit (n % 16) (by omega)
  have hn : n / 16 % 16 * 16 + n % 16 = n := by omega
  show ofHex? (Text.hexDigit (n / 16 % 16) :: Text.hexDigit (n % 16) :: rest) = _
  rw [ofHex?, hh, hl]
  cases ofHex? rest <;> simp [hn]

theorem ofHex_toHex (b : Bytes) : ofHex? (toHex b) = some b := by
  induction b with
  | nil => rfl
  | cons x rest ih =>
    have hx : x.toNat < 256 := x.toNat_lt
    rw [toHex, List.flatMap_cons, ofHex?_pair _ hx]
    rw [toHex] at ih
    simp [ih]

end XofConformance.Bytes
