import XofConformance.Text.Basic
import XofConformance.Bytes.Basic

/-!
# UTF-8

Writing fails exactly on a text that holds something other than scalar values. Reading takes one
byte at a time: between characters it expects a lead byte, inside a character it keeps the bounds
of the next continuation byte, which rules out overlong forms, surrogates and values past
U+10FFFF at the first byte that shows them.
-/

namespace XofConformance.Text

/-! ## Writing -/

/-- The UTF-8 bytes of one scalar value. -/
def utf8Char (c : CodePoint) : Bytes :=
  if c < 0x80 then Bytes.ofNats [c]
  else if c < 0x800 then Bytes.ofNats [0xC0 + c / 0x40, 0x80 + c % 0x40]
  else if c < 0x10000 then
    Bytes.ofNats [0xE0 + c / 0x1000, 0x80 + c / 0x40 % 0x40, 0x80 + c % 0x40]
  else
    Bytes.ofNats [0xF0 + c / 0x40000, 0x80 + c / 0x1000 % 0x40, 0x80 + c / 0x40 % 0x40,
      0x80 + c % 0x40]

/-- The UTF-8 bytes of a text of scalar values. -/
def toUtf8? (t : Text) : Option Bytes :=
  if t.all (fun c => decide (IsScalar c)) then some (t.flatMap utf8Char) else none

/-! ## Reading -/

/-- What is wrong at a place that is not UTF-8. -/
inductive Utf8Defect
  | badStart
  | badContinuation
  | truncated
  deriving DecidableEq, Repr

/-- The first place where a byte string stops being UTF-8: its defect, the position of the
character that is broken, its first byte, and how many bytes are given up. -/
structure Utf8Fault where
  defect : Utf8Defect
  position : Nat
  byte : UInt8
  width : Nat
  deriving DecidableEq, Repr

/-- A character of which some bytes are still to come. -/
structure OpenChar where
  position : Nat
  lead : UInt8
  /-- The bytes read so far. -/
  width : Nat
  /-- The continuation bytes still owed, after the next one. -/
  owed : Nat
  /-- The least and the greatest value of the next byte. -/
  low : Nat
  high : Nat
  /-- The value of the bits read so far. -/
  bits : Nat

/-- What a lead byte begins: a whole character, a longer one, or nothing. -/
inductive Lead
  | whole (c : CodePoint)
  | longer (owed low high bits : Nat)
  | none

/-- The character that a lead byte begins. -/
def lead (b : Nat) : Lead :=
  if b < 0x80 then .whole b
  else if b < 0xC2 then .none
  else if b < 0xE0 then .longer 0 0x80 0xBF (b - 0xC0)
  else if b = 0xE0 then .longer 1 0xA0 0xBF 0
  else if b = 0xED then .longer 1 0x80 0x9F 0xD
  else if b < 0xF0 then .longer 1 0x80 0xBF (b - 0xE0)
  else if b = 0xF0 then .longer 2 0x90 0xBF 0
  else if b < 0xF4 then .longer 2 0x80 0xBF (b - 0xF0)
  else if b = 0xF4 then .longer 2 0x80 0x8F 4
  else .none

/-- Reading from a position, between characters or inside one. -/
def readUtf8 : Nat → Option OpenChar → Bytes → Except Utf8Fault Text
  | _, none, [] => .ok []
  | position, some c, [] =>
    .error { defect := .truncated, position := c.position, byte := c.lead,
             width := position - c.position }
  | position, none, b :: rest =>
    match lead b.toNat with
    | .whole c => do return c :: (← readUtf8 (position + 1) none rest)
    | .longer owed low high bits =>
      readUtf8 (position + 1)
        (some { position, lead := b, width := 1, owed, low, high, bits }) rest
    | .none => .error { defect := .badStart, position, byte := b, width := 1 }
  | position, some c, b :: rest =>
    if c.low ≤ b.toNat ∧ b.toNat ≤ c.high then
      let bits := c.bits * 0x40 + (b.toNat - 0x80)
      match c.owed with
      | 0 => do return bits :: (← readUtf8 (position + 1) none rest)
      | owed + 1 =>
        readUtf8 (position + 1)
          (some { c with width := c.width + 1, owed, low := 0x80, high := 0xBF, bits }) rest
    else
      .error { defect := .badContinuation, position := c.position, byte := c.lead,
               width := c.width }

/-- The text that a byte string spells, or the first place where it spells none. -/
def ofUtf8 (b : Bytes) : Except Utf8Fault Text := readUtf8 0 none b

/-! ## Messages -/

/-- The defect in words. -/
def Utf8Defect.message : Utf8Defect → Text
  | .badStart => "invalid start byte"
  | .badContinuation => "invalid continuation byte"
  | .truncated => "unexpected end of data"

/-- One byte is named by its value, several by their positions. -/
def Utf8Fault.message (f : Utf8Fault) : Text :=
  (if f.width = 1 then
    "'utf-8' codec can't decode byte 0x" ++ ofHex 2 f.byte.toNat ++ " in position "
      ++ ofNat f.position
  else
    "'utf-8' codec can't decode bytes in position " ++ ofNat f.position ++ "-"
      ++ ofNat (f.position + f.width - 1))
  ++ ": " ++ f.defect.message

end XofConformance.Text
