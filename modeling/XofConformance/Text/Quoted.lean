import XofConformance.Text.Printable

/-!
# Quoted texts

The form in which a message quotes a text: between single quotes, or double quotes if the text
holds a single quote and no double one; a backslash, the quote in use and everything unprintable
are escaped.
-/

namespace XofConformance.Text

/-- The quote to put around a text. -/
def quoteFor (t : Text) : CodePoint := if t.contains 0x27 && !t.contains 0x22 then 0x22 else 0x27

/-- One code point inside quotes. -/
def quotedChar (quote c : CodePoint) : Text :=
  if c = quote ∨ c = 0x5C then [0x5C, c]
  else if c = 0x09 then "\\t"
  else if c = 0x0A then "\\n"
  else if c = 0x0D then "\\r"
  else if isPrintable c then [c]
  else if c ≤ 0xFF then "\\x" ++ ofHex 2 c
  else if c ≤ 0xFFFF then "\\u" ++ ofHex 4 c
  else "\\U" ++ ofHex 8 c

/-- The text between quotes. -/
def quoted (t : Text) : Text :=
  let quote := quoteFor t
  quote :: t.flatMap (quotedChar quote) ++ [quote]

end XofConformance.Text
