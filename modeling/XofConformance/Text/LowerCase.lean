import XofConformance.Text.CaseTable

/-!
# Lower case

Full lowering: every capital letter has a simple image, except the dotted capital I, which becomes
two code points, and the capital sigma, whose image depends on whether it ends a word.
-/

namespace XofConformance.Text

/-- `c` is a letter with case. -/
def isCased (c : CodePoint) : Bool := inRanges casedRanges c

/-- `c` is passed over in the search for the letters around a sigma. -/
def isCaseIgnorable (c : CodePoint) : Bool := inRanges caseIgnorableRanges c

/-- The next code point in a direction that is not passed over is a letter with case. -/
def meetsCased : Text → Bool
  | [] => false
  | c :: rest => if isCaseIgnorable c then meetsCased rest else isCased c

/-- The simple lowercase image of a code point. -/
def lowerSimple (c : CodePoint) : CodePoint :=
  if c < 0x80 then (if 0x41 ≤ c ∧ c ≤ 0x5A then c + 0x20 else c)
  else match loweringRuns.find? fun r => r.1 ≤ c && c ≤ r.2.1 && (c - r.1) % r.2.2.1 == 0 with
    | some (_, _, _, distance) => ((c : Int) + distance).toNat
    | none => c

/-- The lowercase image of a code point between the text before it, nearest first, and the text
after it. -/
def lowerAt (behind : Text) (c : CodePoint) (ahead : Text) : Text :=
  if c = 0x130 then [0x69, 0x307]
  else if c = 0x3A3 then
    if meetsCased behind && !meetsCased ahead then [0x3C2] else [0x3C3]
  else [lowerSimple c]

/-- Lowering the text ahead, with the text behind at hand. -/
def lowerFrom (behind : Text) : Text → Text
  | [] => []
  | c :: rest => lowerAt behind c rest ++ lowerFrom (c :: behind) rest

/-- The text in lower case. -/
def lower (t : Text) : Text := lowerFrom [] t

end XofConformance.Text
