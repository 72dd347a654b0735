import XofConformance.Json.Basic

/-!
# Responses

The answer to a test, and a group of answers while it is filled. Slots are filled in any order;
a group is complete when none is empty. Written out, empty and zero fields are left out.

    g.missing = [] ↔ no slot of g is empty                                 (missing_eq_nil_iff)
-/

namespace XofConformance

/-- The result of one round of a chain. -/
structure RoundResult where
  md : Text
  outLen : Number
  deriving DecidableEq

/-- The answer to one test: a digest and its length, or the rounds of a chain. -/
structure TestResponse where
  tcId : Number
  md : Text := []
  outLen : Number := .int 0
  rounds : List RoundResult := []
  deriving DecidableEq

/-- A group whose answers are still coming in, one slot to a test. -/
structure OpenGroup where
  tgId : Number
  slots : List (Option TestResponse)
  deriving DecidableEq

/-- A group with all its answers. -/
structure GroupResponse where
  tgId : Number
  tests : List TestResponse
  deriving DecidableEq

/-! ## Written form -/

/-- A text field that is left out if it is empty. -/
def textField (key : Text) (t : Text) : List (Text × Json) :=
  if t.isEmpty then [] else [(key, .text t)]

/-- A number field that is left out if it is zero. -/
def numberField (key : Text) (n : Number) : List (Text × Json) :=
  if n.isZero then [] else [(key, .number n)]

/-- The digest of a round is always written, its length only if it is not zero. -/
def RoundResult.toJson (r : RoundResult) : Json :=
  .object (("md", .text r.md) :: numberField "outLen" r.outLen)

/-- The identifier of a test is always written. -/
def TestResponse.toJson (r : TestResponse) : Json :=
  .object (("tcId", .number r.tcId) :: (textField "md" r.md ++ numberField "outLen" r.outLen
    ++ if r.rounds.isEmpty then []
      else [(Text.ofString "resultsArray", .array (r.rounds.map RoundResult.toJson))]))

/-- A group with its tests in the order of their slots. -/
def GroupResponse.toJson (g : GroupResponse) : Json :=
  .object [("tgId", .number g.tgId), ("tests", .array (g.tests.map TestResponse.toJson))]

namespace OpenGroup

/-! ## Filling -/

/-- A group of empty slots. -/
def empty (tgId : Number) (count : Nat) : OpenGroup := { tgId, slots := List.replicate count none }

/-- The group with an answer in a slot, if there is such a slot. -/
def fill? (g : OpenGroup) (index : Nat) (r : TestResponse) : Option OpenGroup :=
  if index < g.slots.length then some { g with slots := g.slots.set index (some r) } else none

/-- The positions of the empty slots. -/
def missing (g : OpenGroup) : List Nat :=
  (g.slots.zipIdx.filter fun p => p.1.isNone).map (·.2)

/-- The answers in the order of their slots. -/
def answers (g : OpenGroup) : List TestResponse := g.slots.filterMap id

/-- The group as it stands now. -/
def snapshot (g : OpenGroup) : GroupResponse := { tgId := g.tgId, tests := g.answers }

/-! ## Lemmas -/

theorem missing_eq_nil_iff (g : OpenGroup) : g.missing = [] ↔ ∀ s ∈ g.slots, s.isSome := by
  simp only [missing, List.map_eq_nil_iff, List.filter_eq_nil_iff]
  constructor
  · intro h s hs
    obtain ⟨i, hi, rfl⟩ := List.getElem_of_mem hs
    have := h (g.slots[i], i) (by simp [List.mem_zipIdx_iff_getElem?])
    simpa [Option.isSome_iff_ne_none] using this
  · rintro h ⟨s, i⟩ hm
    have := h s (List.fst_mem_of_mem_zipIdx hm)
    simpa [Option.isSome_iff_ne_none] using this

end OpenGroup

end XofConformance
