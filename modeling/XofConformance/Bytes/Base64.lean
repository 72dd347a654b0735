import XofConformance.Bytes.Basic
import XofConformance.Text.Basic

/-!
# Base64

Reading as leniently as configuration files allow: what is no digit is passed over, and padding
that completes a group of four ends the text.
-/

namespace XofConformance.Bytes

/-- The value of a base64 digit. -/
def base64Value? (c : CodePoint) : Option Nat :=
  if 0x41 ≤ c ∧ c ≤ 0x5A then some (c - 0x41)
  else if 0x61 ≤ c ∧ c ≤ 0x7A then some (c - 0x61 + 26)
  else if Text.isDigit c then some (Text.digitValue c + 52)
  else if c = 0x2B then some 62
  else if c = 0x2F then some 63
  else none

/-- The bytes of a text that follows `held` digits of a group, the last of which has the bits
`bits` still to be used, and then `pads` padding marks. -/
def base64From (held bits pads : Nat) : Text → Option Bytes
  | [] => if held = 0 then some [] else none
  | c :: rest =>
    if c = 0x3D then
      if 2 ≤ held ∧ 4 ≤ held + pads + 1 then some []
      else base64From held bits (if 2 ≤ held then pads + 1 else pads) rest
    else
      match base64Value? c with
      | none => base64From held bits pads rest
      | some v =>
        match held with
        | 0 => base64From 1 v 0 rest
        | 1 => (base64From 2 (v % 16) 0 rest).map (UInt8.ofNat (bits * 4 + v / 16) :: ·)
        | 2 => (base64From 3 (v % 4) 0 rest).map (UInt8.ofNat (bits * 16 + v / 4) :: ·)
        | _ => (base64From 0 0 0 rest).map (UInt8.ofNat (bits * 64 + v) :: ·)

/-- The bytes that a text of ASCII characters spells. -/
def ofBase64? (t : Text) : Option Bytes :=
  if t.all (· < 0x80) then base64From 0 0 0 t else none

end XofConformance.Bytes
