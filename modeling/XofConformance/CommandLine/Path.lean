import XofConformance.Text.Basic

/-!
# Paths

A path in normal form: its parts between single slashes, without those that say "here".
-/

namespace XofConformance.Path

/-- The parts of a path that say something. -/
def parts (path : Text) : List Text :=
  (Text.splitOn 0x2F path).filter fun part => !part.isEmpty && part != Text.ofString "."

/-- The slashes that a path starts with: none, one, or exactly two. -/
def root (path : Text) : Text :=
  let slashes := path.takeWhile (· == 0x2F)
  if slashes.length = 2 then slashes else slashes.take 1

/-- The path of parts. -/
def ofParts (root : Text) (parts : List Text) : Text :=
  if root.isEmpty && parts.isEmpty then "." else root ++ Text.join "/" parts

/-- The path in normal form. -/
def normal (path : Text) : Text := ofParts (root path) (parts path)

/-- The paths of the directories around a path, the outermost first. -/
def ancestors (path : Text) : List Text :=
  let all := parts path
  (List.range (all.length - 1)).map fun n => ofParts (root path) (all.take (n + 1))

/-- The path of something in a directory. -/
def inside (directory name : Text) : Text :=
  if directory.isEmpty then name else Text.concat [directory, "/", name]

end XofConformance.Path
