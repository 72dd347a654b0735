import XofConformance.Text.Basic

/-!
# Words of a command line

Words are separated by spaces, tabs and line ends. A backslash takes the next code point as it
is. Between single quotes everything stands for itself; between double quotes a backslash escapes
only a double quote or another backslash and otherwise stays. A quoted part belongs to the word
around it, so that a pair of quotes alone is an empty word.
-/

namespace XofConformance.Text.ShellWords

/-- Where in a command line a code point stands. -/
inductive Place
  | bare
  | single
  | double
  /-- After a backslash, between double quotes or not. -/
  | escaped (quoted : Bool)
  deriving DecidableEq

/-- `c` separates words. -/
def isSeparator (c : CodePoint) : Bool := c == 0x20 || c == 0x09 || c == 0x0A || c == 0x0D

/-- A word, if there is one yet, and more of it. -/
def extend (word : Option Text) (more : Text) : Option Text := some (word.getD [] ++ more)

/-- The words of a text that follows the beginning of a word; nothing if a quote is left open or a
backslash comes last. -/
def wordsFrom : Place → Option Text → Text → Option (List Text)
  | .bare, word, [] => some word.toList
  | _, _, [] => none
  | .bare, word, c :: rest =>
    if isSeparator c then (wordsFrom .bare none rest).map (word.toList ++ ·)
    else if c = 0x5C then wordsFrom (.escaped false) word rest
    else if c = 0x27 then wordsFrom .single (extend word []) rest
    else if c = 0x22 then wordsFrom .double (extend word []) rest
    else wordsFrom .bare (extend word [c]) rest
  | .single, word, c :: rest =>
    if c = 0x27 then wordsFrom .bare word rest else wordsFrom .single (extend word [c]) rest
  | .double, word, c :: rest =>
    if c = 0x22 then wordsFrom .bare word rest
    else if c = 0x5C then wordsFrom (.escaped true) word rest
    else wordsFrom .double (extend word [c]) rest
  | .escaped false, word, c :: rest => wordsFrom .bare (extend word [c]) rest
  | .escaped true, word, c :: rest =>
    let more := if c = 0x22 ∨ c = 0x5C then [c] else [0x5C, c]
    wordsFrom .double (extend word more) rest

/-- The words of a command line. -/
def split? (t : Text) : Option (List Text) := wordsFrom .bare none t

end XofConformance.Text.ShellWords
