import XofConformance.Fault
import XofConformance.Text.LowerCase

/-!
# Algorithms

The functions that vector sets are run for. A name is looked up without regard to case and has
one canonical spelling.
-/

namespace XofConformance

/-- An extendable output function. -/
inductive Algorithm
  | cShake128
  | cShake256
  deriving DecidableEq

namespace Algorithm

/-- The canonical name. -/
def name : Algorithm → Text
  | .cShake128 => "cSHAKE-128"
  | .cShake256 => "cSHAKE-256"

/-- All algorithms in the order of their names. -/
def all : List Algorithm := [.cShake128, .cShake256]

/-- The algorithm of a name in any case. -/
def ofName (name : Option Text) : Except Fault Algorithm :=
  let wanted := Text.lower (name.getD [])
  match all.find? fun a => Text.lower a.name == wanted with
  | some a => .ok a
  | none => .error (.input (.algorithm name (all.map Algorithm.name)))

end Algorithm

end XofConformance
