/-!
# Byte strings
-/

namespace XofConformance

/-- A byte string. -/
abbrev Bytes := List UInt8

namespace Bytes

/-- The length in bits. -/
def bitLength (b : Bytes) : Nat := b.length * 8

/-- The bytes of a list of numbers, each taken modulo 256. -/
def ofNats (ns : List Nat) : Bytes := ns.map UInt8.ofNat

end Bytes

end XofConformance
