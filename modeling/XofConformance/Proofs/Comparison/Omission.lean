import XofConformance.Proofs.Comparison.Coverage
import XofConformance.Proofs.Comparison.Stored

/-!
# Fields that an answer leaves out

An answer is written without its empty fields. Compared with the test that spells out all its
values, it is as expected if it has left nothing out; a value that it has left out counts as null,
and null is not empty. A test is compared in this way wherever it stands, if no later one has its
identifiers.

    a document with the test has one case of it, passed if and only if it agrees
                                                                           (Stands.exists_case)
    r.toJson agrees with r.spelledOut if and only if r.NothingEmpty
                                           (agrees_spelledOut_functional, agrees_spelledOut_monteCarlo)
-/

namespace XofConformance

namespace Comparison

/-! ## One test of a document -/

variable {groups gotGroups : List Json} {a e : Entry} {d : Document}

/-- Rounds of expected tests are lists. -/
def HasRoundLists (groups : List Json) : Prop :=
  ∀ e ∈ entries groups, ∀ v, e.test.field? "resultsArray" = some v → ∃ es, v = .array es

/-- Comparing an expected test with tables gives a case. -/
theorem exists_case (hgroups : Indexable groups) (hrounds : HasRoundLists groups)
    (got : Table (Table Json)) (he : e ∈ (tableOf groups).entries) :
    ∃ c, compareEntry got e = .ok c := by
  cases hlookup : got.lookup e with
  | none => exact ⟨_, compareEntry_of_absent hlookup⟩
  | some actual =>
    obtain ⟨e₀, he₀, -, htest, -⟩ := hgroups.exists_of_mem he
    have hlists := hrounds e₀ he₀
    rw [htest] at hlists
    obtain ⟨m, hm, -⟩ := compareTest_spec actual hlists
    rw [compareEntry_of_lookup hlookup, hm]
    exact ⟨_, rfl⟩

/-- A test that stands in a document has one case of its own. If a test of the response stands under
the same identifiers, it has passed if and only if the two agree. -/
theorem Stands.exists_case (hd : Opens d groups) (hgot : Indexable gotGroups)
    (hgroups : Indexable groups) (hrounds : HasRoundLists groups) (ha : Stands gotGroups a)
    (he : Stands groups e) (hsame : a.isAs e = true) :
    ∃ report c, compareResponses (.array gotGroups) d = .ok report ∧
      report.cases.filter (fun c => c.isFor e) = [c] ∧
      (c.failure = none ↔ Agrees a.test e.test) := by
  obtain ⟨cases, hcases⟩ := exists_forall₂ fun e' he' =>
    Comparison.exists_case (e := e') hgroups hrounds (tableOf gotGroups) he'
  have hreport : compareResponses (.array gotGroups) d = .ok ⟨cases⟩ :=
    compareResponses_eq_ok_iff.2 ⟨gotGroups, groups, rfl, hd, hgot, hgroups, hcases⟩
  obtain ⟨e', hfilter, htest, hsame'⟩ := he.filter_entries hgroups
  have he' : e' ∈ (tableOf groups).entries := by
    refine List.mem_of_mem_filter (p := fun a => a.isAs e) ?_
    rw [hfilter]
    exact List.mem_singleton_self e'
  have hcase := forall₂_cases hcases e
  rw [hfilter, List.forall₂_cons_left_iff] at hcase
  obtain ⟨c, rest, hc, hrest, hone⟩ := hcase
  obtain rfl := List.forall₂_nil_left_iff.1 hrest
  -- the test of the response is found under the identifiers that the table has for the other one
  obtain ⟨e₀, he₀, -, htest₀, hkeys⟩ := hgroups.exists_of_mem he'
  have hlookup : (tableOf gotGroups).lookup e' = some a.test :=
    ha.lookup_eq hgot
      (Entry.isAs_trans (ha.isKey hgot) hsame (Entry.isAs_symm hkeys hsame'))
  have hlists := hrounds e₀ he₀
  rw [htest₀, htest] at hlists
  obtain ⟨m, hm, hnone⟩ := compareTest_spec a.test hlists
  rw [compareEntry_of_lookup hlookup, htest, hm] at hc
  cases hc
  refine ⟨_, _, hreport, hone, ?_⟩
  show m.map _ = none ↔ _
  rw [Option.map_eq_none_iff, hnone]

end Comparison

/-! ## Spelled out -/

/-- The round with all its values. -/
def RoundResult.spelledOut (r : RoundResult) : Json := .object r.fields

/-- The answer to a test of a type with all its values. -/
def TestResponse.spelledOut (r : TestResponse) : TestType → Json
  | .functional =>
    .object [("tcId", .number r.tcId), ("md", .text r.md), ("outLen", .number r.outLen)]
  | .monteCarlo =>
    .object [("tcId", .number r.tcId),
      ("resultsArray", .array (r.rounds.map RoundResult.spelledOut))]

/-- No digest of the answer is empty, and no length zero. -/
def TestResponse.NothingEmpty (r : TestResponse) : TestType → Prop
  | .functional => r.md ≠ [] ∧ r.outLen.isZero = false
  | .monteCarlo => ∀ round ∈ r.rounds, round.md ≠ [] ∧ round.outLen.isZero = false

namespace Comparison

open Json (Writable)

/-- A round is equal to what it is spelled out as if its length was written. -/
theorem deepEqual_spelledOut_iff {r : RoundResult} (h : r.IsExact) :
    deepEqual r.toJson r.spelledOut = true ↔ r.outLen.isZero = false := by
  cases hzero : r.outLen.isZero with
  | true =>
    have hjson : r.toJson = .object [("md", .text r.md)] := by
      simp only [RoundResult.toJson, numberField, hzero, if_true]
    refine iff_of_false ?_ Bool.noConfusion
    rw [hjson]
    exact Bool.false_ne_true
  | false =>
    have hjson : r.toJson = r.spelledOut := by
      simp only [RoundResult.toJson, numberField, hzero, Bool.false_eq_true, if_false]
      rfl
    have hself := deepEqual_self h.lasting.writable
    rw [hjson] at hself ⊢
    exact iff_of_true hself rfl

variable {r : TestResponse}

/-- A functional answer agrees with the test that spells it out if it leaves nothing out: a digest
that is not there is shown as a word, and a length that is not there is no number. -/
theorem agrees_spelledOut_functional (hlen : r.outLen.IsInt) :
    Agrees r.toJson (r.spelledOut .functional) ↔ r.NothingEmpty .functional := by
  have hnodigest : Text.lower (Json.shown .null) ≠ Text.lower [] := by decide
  have hnolength : ∀ n, deepEqual (.object [("outLen", .null)])
      (.object [("outLen", .number n)]) = false := fun _ => rfl
  have hlength : deepEqual (.object [("outLen", .number r.outLen)])
      (.object [("outLen", .number r.outLen)]) = true :=
    deepEqual_self (.object_singleton (by decide) (lasting_number hlen).writable)
  have hmd : r.toJson.field digestKey = if r.md = [] then .null else .text r.md := by
    unfold TestResponse.toJson textField numberField
    cases r.md <;> cases r.outLen.isZero <;> cases r.rounds <;> rfl
  have hout : r.toJson.field "outLen" = if r.outLen.isZero then .null else .number r.outLen := by
    unfold TestResponse.toJson textField numberField
    cases r.md <;> cases r.outLen.isZero <;> cases r.rounds <;> rfl
  have hfields : Agrees r.toJson (r.spelledOut .functional) ↔
      Text.lower (r.toJson.field digestKey).shown = Text.lower r.md ∧
        deepEqual (.object [("outLen", r.toJson.field "outLen")])
          (.object [("outLen", .number r.outLen)]) = true := by
    show ((∀ md, some (Json.text r.md) = some md → _) ∧
      ∀ n, some (Json.number r.outLen) = some n → _) ↔ _
    simp only [Option.some.injEq, forall_eq']
    rfl
  rw [hfields, hmd, hout]
  unfold TestResponse.NothingEmpty
  refine and_congr ?_ ?_
  · by_cases hempty : r.md = []
    · rw [if_pos hempty, hempty]
      exact iff_of_false hnodigest fun h => h rfl
    · rw [if_neg hempty]
      exact iff_of_true rfl hempty
  · cases hzero : r.outLen.isZero with
    | true => exact iff_of_false (by rw [if_pos rfl, hnolength]; exact Bool.false_ne_true) nofun
    | false => exact iff_of_true hlength rfl

/-- The answer of a chain agrees with the test that spells it out if every round is equal to what it
is spelled out as. -/
theorem agrees_spelledOut_monteCarlo (hr : r.rounds ≠ [])
    (hexact : ∀ round ∈ r.rounds, round.IsExact) :
    Agrees r.toJson (r.spelledOut .monteCarlo) ↔
      ∀ round ∈ r.rounds, round.outLen.isZero = false := by
  have hrounds : r.toJson.field "resultsArray" = .array (r.rounds.map RoundResult.toJson) := by
    unfold TestResponse.toJson textField numberField
    cases hcase : r.rounds with
    | nil => exact absurd hcase hr
    | cons first rest => cases r.md <;> cases r.outLen.isZero <;> rfl
  have hfields : Agrees r.toJson (r.spelledOut .monteCarlo) ↔
      List.Forall₂ (fun r e => deepEqual r e = true) (r.rounds.map RoundResult.toJson)
        (r.rounds.map RoundResult.spelledOut) := by
    show (∃ rs es, r.toJson.field "resultsArray" = .array rs ∧
      Json.array (r.rounds.map RoundResult.spelledOut) = .array es ∧ _) ↔ _
    rw [hrounds]
    constructor
    · rintro ⟨rs, es, hrs, hes, h⟩
      cases hrs
      cases hes
      exact h
    · exact fun h => ⟨_, _, rfl, rfl, h⟩
  rw [hfields, List.forall₂_map_left_iff, List.forall₂_map_right_iff, List.forall₂_same]
  exact forall₂_congr fun round hround => deepEqual_spelledOut_iff (hexact round hround)

end Comparison

end XofConformance
