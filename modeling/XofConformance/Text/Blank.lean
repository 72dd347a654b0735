import XofConformance.Text.Basic

/-!
# Blanks

The code points that count as white space at the ends of a line or of a number: those with the
Unicode property or a bidirectional class of a separator, 29 in all.
-/

namespace XofConformance.Text

/-- The code points that are white space. -/
def blanks : List CodePoint :=
  [
    0x9, 0xA, 0xB, 0xC, 0xD, 0x1C, 0x1D, 0x1E, 0x1F, 0x20, 0x85, 0xA0, 0x1680, 0x2000, 0x2001,
    0x2002, 0x2003, 0x2004, 0x2005, 0x2006, 0x2007, 0x2008, 0x2009, 0x200A, 0x2028, 0x2029,
    0x202F, 0x205F, 0x3000
  ]

/-- `c` is white space. -/
def isBlank (c : CodePoint) : Bool := blanks.contains c

/-- Without white space at either end. -/
def strip (t : Text) : Text := trim isBlank t

end XofConformance.Text
