import XofConformance.Text.Basic

/-!
# XML elements

An element with attributes, text and children, and its written form. An attribute is escaped when
it is made, a text when it is written; a lone surrogate, which has no UTF-8 form, is written as a
character reference.
-/

namespace XofConformance.Xml

/-- An attribute with its value in written form. -/
structure Attribute where
  name : Text
  written : Text

/-- An element: its text comes before its children. -/
inductive Element
  | mk (name : Text) (attributes : List Attribute) (text : Text) (children : List Element)

/-- One code point of a text. -/
def escapeText (c : CodePoint) : Text :=
  if c = 0x26 then "&amp;"
  else if c = 0x3C then "&lt;"
  else if c = 0x3E then "&gt;"
  else [c]

/-- One code point of an attribute value: also the quote and the line breaks are escaped. -/
def escapeAttribute (c : CodePoint) : Text :=
  if c = 0x22 then "&quot;"
  else if c = 0x0D then "&#13;"
  else if c = 0x0A then "&#10;"
  else if c = 0x09 then "&#09;"
  else escapeText c

/-- The attribute with a value. -/
def Attribute.ofText (name value : Text) : Attribute := { name, written := value.flatMap escapeAttribute }

/-- A written attribute with a blank before it. -/
def Attribute.write (a : Attribute) : Text := Text.concat [" ", a.name, "=\"", a.written, "\""]

mutual

/-- An element with its text and children, or as an empty tag. -/
def writeElement : Element → Text
  | .mk name attributes text children =>
    let start := Text.concat ["<", name, attributes.flatMap Attribute.write]
    if text.isEmpty && children.isEmpty then start ++ " />"
    else Text.concat [start, ">", text.flatMap escapeText, writeElements children, "</", name, ">"]

/-- Elements one after the other. -/
def writeElements : List Element → Text
  | [] => []
  | e :: rest => writeElement e ++ writeElements rest

end

/-- A lone surrogate as a character reference. -/
def referSurrogate (c : CodePoint) : Text :=
  if Text.IsSurrogate c then Text.concat ["&#", Text.ofNat c, ";"] else [c]

/-- The declaration at the start of a document. -/
def declaration : Text := "<?xml version='1.0' encoding='utf-8'?>\n"

/-- The document that has an element as its root. -/
def document (root : Element) : Text :=
  declaration ++ (writeElement root).flatMap referSurrogate

end XofConformance.Xml
