import XofConformance.Proofs.Comparison.Entries

/-!
# Coverage of a comparison

Which expected tests a report is about. What is no object in a list of tests is passed over, and a
test is replaced by a later one with its identifiers. Every other test has one case of the report,
and no other test has it; it has failed if the response has nothing under its identifiers.

    (tableOf groups).entries.filter (·.isAs e) = [e'], where e' is about the test of e
                                                                     (Stands.filter_entries)
    compareResponses v d = .ok report → Covers gotGroups groups report
                                                                  (compareResponses_covers)
-/

namespace XofConformance.Comparison

open Json (sameKey)

variable {groups gotGroups : List Json} {e : Entry} {report : Report}

/-! ## Tests that are not replaced -/

/-- The test stands in the document, and no later group has the identifier of its group and no later
test of the group has its own. -/
def Stands (groups : List Json) (e : Entry) : Prop :=
  ∃ before g after first rest, groups = before ++ g :: after ∧
    testsOf g = first ++ e.test :: rest ∧
    e.tgId = g.field "tgId" ∧ e.tcId = e.test.field "tcId" ∧
    (∀ g' ∈ after, sameKey (g'.field "tgId") e.tgId = false) ∧
    ∀ t ∈ rest, sameKey (t.field "tcId") e.tcId = false

theorem Stands.isKey (h : Stands groups e) (hgroups : Indexable groups) :
    e.tgId.isKey = true ∧ e.tcId.isKey = true := by
  obtain ⟨before, g, after, first, rest, rfl, htests, htgId, htcId, -, -⟩ := h
  have hg : g ∈ before ++ g :: after := List.mem_append_right _ List.mem_cons_self
  have htest : e.test ∈ testsOf g := by
    rw [htests]
    exact List.mem_append_right _ List.mem_cons_self
  rw [htgId, htcId]
  exact ⟨hgroups.groupKeys g hg, hgroups.testKeys g hg _ htest⟩

/-- The test is found in the tables of the document. -/
theorem Stands.exists_tests (h : Stands groups e) (hgroups : Indexable groups) :
    ∃ g ∈ groups, (tableOf groups).find? e.tgId = some (Table.putAll [] (testRows g)) ∧
      (Table.putAll [] (testRows g)).find? e.tcId = some e.test := by
  obtain ⟨before, g, after, first, rest, rfl, htests, htgId, htcId, hgroup, htest⟩ := h
  have hg : g ∈ before ++ g :: after := List.mem_append_right _ List.mem_cons_self
  refine ⟨g, hg, ?_, ?_⟩
  · have hkeyed := hgroups.keyed_groupRows
    unfold tableOf
    unfold groupRows at hkeyed ⊢
    rw [List.map_append, List.map_cons] at hkeyed ⊢
    rw [htgId]
    refine Table.find?_putAll_last hkeyed fun q hq => ?_
    obtain ⟨g', hg', rfl⟩ := List.mem_map.1 hq
    rw [← htgId]
    exact hgroup g' hg'
  · have hkeyed := hgroups.keyed_testRows hg
    unfold testRows at hkeyed ⊢
    rw [htests, List.map_append, List.map_cons] at hkeyed ⊢
    rw [htcId]
    refine Table.find?_putAll_last hkeyed fun q hq => ?_
    obtain ⟨t, ht, rfl⟩ := List.mem_map.1 hq
    rw [← htcId]
    exact htest t ht

/-- The test is found under its identifiers, however they are spelled. -/
theorem Stands.lookup_eq {a : Entry} (h : Stands groups a) (hgroups : Indexable groups)
    (hsame : a.isAs e = true) : (tableOf groups).lookup e = some a.test := by
  obtain ⟨htgId, htcId⟩ := h.isKey hgroups
  unfold Entry.isAs at hsame
  rw [Bool.and_eq_true] at hsame
  obtain ⟨g, hg, htests, htest⟩ := h.exists_tests hgroups
  have htestRows : (Table.putAll [] (testRows g)).Keyed :=
    Table.Keyed.putAll (t := []) nofun (hgroups.keyed_testRows hg)
  unfold Table.lookup
  rw [← Table.find?_congr hgroups.keyed_tableOf htgId hsame.1, htests]
  show (Table.putAll [] (testRows g)).find? e.tcId = some a.test
  rw [← Table.find?_congr htestRows htcId hsame.2, htest]

/-- What is found in the tables of a document stands in it. -/
theorem Indexable.exists_stands (hgroups : Indexable groups) {test : Json}
    (h : (tableOf groups).lookup e = some test) :
    ∃ a, Stands groups a ∧ a.isAs e = true ∧ a.test = test := by
  unfold Table.lookup at h
  cases hfind : (tableOf groups).find? e.tgId with
  | none =>
    rw [hfind] at h
    cases h
  | some tests =>
    rw [hfind] at h
    obtain ⟨rows, r, rows', hrows, hr, htgId, hlast⟩ :=
      Table.exists_last_of_find? hgroups.keyed_groupRows hfind
    obtain ⟨before, rest, rfl, rfl, hrest⟩ := List.map_eq_append_iff.1 hrows
    obtain ⟨g, after, rfl, rfl, rfl⟩ := List.map_eq_cons_iff.1 hrest
    have hg : g ∈ before ++ g :: after := by simp
    subst hr
    obtain ⟨front, q, back, htests, rfl, htcId, hlast'⟩ :=
      Table.exists_last_of_find? (hgroups.keyed_testRows hg) h
    obtain ⟨first, rest, hsplit, rfl, hrest⟩ := List.map_eq_append_iff.1 htests
    obtain ⟨t, rest, rfl, rfl, rfl⟩ := List.map_eq_cons_iff.1 hrest
    refine ⟨⟨g.field "tgId", t.field "tcId", t⟩, ⟨before, g, after, first, rest, rfl, hsplit, rfl,
      rfl, List.forall_mem_map.1 hlast, List.forall_mem_map.1 hlast'⟩, ?_, rfl⟩
    unfold Entry.isAs
    rw [htgId, htcId]
    rfl

/-- A test in the tables of a document is found under its identifiers. -/
theorem Indexable.lookup_of_mem (hgroups : Indexable groups) (he : e ∈ (tableOf groups).entries) :
    (tableOf groups).lookup e = some e.test := by
  obtain ⟨⟨tgId, tests⟩, hrow, he⟩ := List.mem_flatMap.1 he
  obtain ⟨⟨tcId, test⟩, htest, rfl⟩ := List.mem_map.1 he
  obtain ⟨p, hp, -, rfl⟩ := (Table.mem_putAll hgroups.keyed_groupRows hrow).resolve_left
    List.not_mem_nil
  obtain ⟨g, hg, rfl⟩ := List.mem_map.1 hp
  have hkeyed : (Table.putAll [] (testRows g)).Keyed :=
    Table.Keyed.putAll (t := []) nofun (hgroups.keyed_testRows hg)
  have hfind : (tableOf groups).find? tgId = some (Table.putAll [] (testRows g)) :=
    (Table.find?_eq_some_iff hgroups.keyed_tableOf (distinct_tableOf groups)).2
      ⟨tgId, hrow, Json.sameKey_refl (hgroups.keyed_tableOf _ hrow)⟩
  have hfind' : (Table.putAll [] (testRows g)).find? tcId = some test :=
    (Table.find?_eq_some_iff hkeyed (Table.Distinct.putAll (t := []) .nil _)).2
      ⟨tcId, htest, Json.sameKey_refl (hkeyed _ htest)⟩
  unfold Table.lookup
  rw [hfind]
  exact hfind'

/-- What stands in tables under the identifiers of an entry. -/
theorem filter_entries (table : Table (Table Json)) (e : Entry) :
    table.entries.filter (fun a => a.isAs e) =
      (table.filter fun g => sameKey g.1 e.tgId).flatMap fun g =>
        (g.2.filter fun t => sameKey t.1 e.tcId).map fun t => ⟨g.1, t.1, t.2⟩ := by
  unfold Table.entries Entry.isAs
  induction table with
  | nil => rfl
  | cons g rest ih =>
    rw [List.flatMap_cons, List.filter_append, ih, List.filter_map, List.filter_cons]
    cases hg : sameKey g.1 e.tgId with
    | true =>
      simp only [Function.comp_def, hg, Bool.true_and, if_true, List.flatMap_cons]
    | false =>
      simp only [Function.comp_def, hg, Bool.false_and, Bool.false_eq_true, if_false,
        List.filter_false, List.map_nil, List.nil_append]

/-- The test is the only one under its identifiers in the tables of the document. -/
theorem Stands.filter_entries (h : Stands groups e) (hgroups : Indexable groups) :
    ∃ e' : Entry, (tableOf groups).entries.filter (fun a => a.isAs e) = [e'] ∧
      e'.test = e.test ∧ e'.isAs e = true := by
  obtain ⟨g, hg, htests, htest⟩ := h.exists_tests hgroups
  have htestRows : (Table.putAll [] (testRows g)).Keyed :=
    Table.Keyed.putAll (t := []) nofun (hgroups.keyed_testRows hg)
  obtain ⟨tgId, htgIds, htgId⟩ := Table.filter_of_find? hgroups.keyed_tableOf
    (distinct_tableOf groups) htests
  obtain ⟨tcId, htcIds, htcId⟩ := Table.filter_of_find? htestRows
    (Table.Distinct.putAll (t := []) .nil _) htest
  refine ⟨⟨tgId, tcId, e.test⟩, ?_, rfl, ?_⟩
  · rw [Comparison.filter_entries, htgIds, List.flatMap_singleton, htcIds]
    rfl
  · unfold Entry.isAs
    rw [htgId, htcId]
    rfl

/-! ## Counting -/

theorem length_testRows_le (g : Json) :
    (Table.putAll [] (testRows g)).length ≤ (testsOf g).length := by
  have hrows : (testRows g).length = (testsOf g).length := List.length_map _
  rw [← hrows]
  exact Table.length_putAll_le

theorem sum_groupRows_le (groups : List Json) :
    ((groupRows groups).map fun g => g.2.length).sum ≤ (entries groups).length := by
  induction groups with
  | nil => exact Nat.le_refl _
  | cons g rest ih =>
    unfold groupRows entries at ih ⊢
    rw [List.map_cons, List.map_cons, List.sum_cons, List.flatMap_cons, List.length_append,
      List.length_map]
    exact Nat.add_le_add (length_testRows_le g) ih

theorem length_entries_tableOf_le (groups : List Json) :
    (tableOf groups).entries.length ≤ (entries groups).length := by
  have hput : ((tableOf groups).map fun g => g.2.length).sum ≤
      0 + ((groupRows groups).map fun g => g.2.length).sum :=
    Table.sum_putAll_le List.length
  have hrows := sum_groupRows_le groups
  have hentries : (tableOf groups).entries.length =
      ((tableOf groups).map fun g => g.2.length).sum := by
    unfold Table.entries
    simp only [List.length_flatMap, List.length_map]
  omega

/-! ## Cases -/

/-- The case stands under the identifiers of an entry. -/
def CaseReport.isFor (c : CaseReport) (e : Entry) : Bool :=
  sameKey c.tgId e.tgId && sameKey c.tcId e.tcId

/-- What a report has of the tests of a document. -/
structure Covers (gotGroups groups : List Json) (report : Report) : Prop where
  /-- There are no more cases than objects in the lists of tests. -/
  le : report.ran ≤ (entries groups).length
  /-- There are as many if no identifier is repeated. -/
  all : DistinctIds groups → report.ran = (entries groups).length
  /-- Every case is about a test of the document that is not replaced. -/
  only : ∀ c ∈ report.cases, ∃ e, Stands groups e ∧ c.isFor e = true ∧
    ∀ f, c.failure = some f → f.expected = e.test
  /-- A test that is not replaced has one case of its own, and has failed if it is missing. -/
  each : ∀ e, Stands groups e → ∃ c, report.cases.filter (fun c => c.isFor e) = [c] ∧
    (∀ f, c.failure = some f → f.expected = e.test) ∧
    ((∀ a ∈ entries gotGroups, a.isAs e = false) →
      c.failure = some { mismatch := .absent, expected := e.test, actual := .null })

/-- Cases go in step with the tests that they are about. -/
theorem forall₂_cases {got : Table (Table Json)} {es : List Entry} {cases : List CaseReport}
    (h : List.Forall₂ (fun e c => compareEntry got e = .ok c) es cases) (e : Entry) :
    List.Forall₂ (fun e c => compareEntry got e = .ok c) (es.filter fun a => a.isAs e)
      (cases.filter fun c => c.isFor e) := by
  refine forall₂_filter h fun a c hac => ?_
  obtain ⟨htgId, htcId, -⟩ := about_of_compareEntry hac
  unfold Entry.isAs CaseReport.isFor
  rw [htgId, htcId]

/-- A test that the response has nothing for is found missing, however its identifiers are spelled
in the table. -/
theorem compareEntry_of_missing {e' : Entry} (hgot : Indexable gotGroups)
    (hmissing : ∀ a ∈ entries gotGroups, a.isAs e = false) (hsame : e'.isAs e = true) :
    compareEntry (tableOf gotGroups) e' =
      .ok { tgId := e'.tgId, tcId := e'.tcId,
            failure := some { mismatch := .absent, expected := e'.test, actual := .null } } := by
  cases hlookup : (tableOf gotGroups).lookup e' with
  | none => exact compareEntry_of_absent hlookup
  | some actual =>
    obtain ⟨a, ha, has, -⟩ := hgot.exists_of_lookup hlookup
    have hsame' := Entry.isAs_trans (hgot.isKey_of_mem ha) has hsame
    rw [hmissing a ha] at hsame'
    cases hsame'

/-! ## Top theorem -/

/-- Whatever a report says, it is about every expected test that is an object and is not replaced by
a later one with its identifiers, and about no other; and such a test has failed if the response
does not have it. -/
theorem compareResponses_covers {v : Json} {d : Document} {report : Report}
    (h : compareResponses v d = .ok report) :
    ∃ gotGroups groups, v = .array gotGroups ∧ Opens d groups ∧
      Covers gotGroups groups report := by
  obtain ⟨gotGroups, groups, hv, hopens, hgot, hgroups, hcases⟩ := compareResponses_eq_ok_iff.1 h
  refine ⟨gotGroups, groups, hv, hopens, ?_⟩
  have hlength : report.ran = (tableOf groups).entries.length := hcases.length_eq.symm
  refine {
    le := by
      rw [hlength]
      exact length_entries_tableOf_le groups
    all := fun hdistinct => by rw [hlength, hdistinct.entries_tableOf]
    only := fun c hc => ?_
    each := fun e hstands => ?_ }
  · obtain ⟨e', he', hcompare⟩ := exists_left_of_forall₂ hcases hc
    obtain ⟨e, hstands, hsame, htest⟩ := hgroups.exists_stands (hgroups.lookup_of_mem he')
    obtain ⟨htgId, htcId, habout⟩ := about_of_compareEntry hcompare
    refine ⟨e, hstands, ?_, fun f hf => (habout f hf).trans htest.symm⟩
    unfold CaseReport.isFor
    rw [htgId, htcId]
    exact Entry.isAs_symm (hstands.isKey hgroups) hsame
  obtain ⟨e', hfilter, htest, hsame⟩ := hstands.filter_entries hgroups
  have hcase := forall₂_cases hcases e
  rw [hfilter, List.forall₂_cons_left_iff] at hcase
  obtain ⟨c, rest, hc, hrest, hone⟩ := hcase
  obtain rfl := List.forall₂_nil_left_iff.1 hrest
  refine ⟨c, hone, fun f hf => ?_, fun hmissing => ?_⟩
  · rw [← htest]
    exact (about_of_compareEntry hc).2.2 f hf
  · rw [compareEntry_of_missing hgot hmissing hsame] at hc
    cases hc
    rw [htest]

/-- A list of tests in which an identifier is repeated, and something is no test. -/
def repeatedTests : Json :=
  .array [.object [("tgId", .int 1), ("tests", .array [
    .object [("tcId", .int 1), ("md", .text "aa")],
    .object [("tcId", .int 1), ("md", .text "bb")], .int 7])]]

/-- A response that answers the last of them. -/
def lastAnswer : Json :=
  .array [.object [("tgId", .int 1), ("tests", .array [
    .object [("tcId", .int 1), ("md", .text "bb")]])]]

/-- A document of expected results with these tests. -/
def repeatedDocument : Document := .value (.object [("testGroups", repeatedTests)])

theorem compareResponses_repeatedDocument : ∃ report,
    compareResponses lastAnswer repeatedDocument = .ok report ∧ report.ran = 1 ∧
      report.failed = 0 := by
  have hcheck : (match compareResponses lastAnswer repeatedDocument with
      | .ok report => decide (report.ran = 1 ∧ report.failed = 0)
      | .error _ => false) = true := by
    decide +kernel
  split at hcheck
  · next report hreport => exact ⟨report, hreport, of_decide_eq_true hcheck⟩
  · cases hcheck

theorem repeatedDocument_covers : ∃ report,
    compareResponses lastAnswer repeatedDocument = .ok report ∧ ∃ gotGroups groups,
      lastAnswer = .array gotGroups ∧ Opens repeatedDocument groups ∧
        Covers gotGroups groups report := by
  obtain ⟨report, hreport, -⟩ := compareResponses_repeatedDocument
  exact ⟨report, hreport, compareResponses_covers hreport⟩

/-- Three things stand in the list of tests. One case comes of them, and it has passed. -/
theorem repeatedDocument_uncovered : ∃ groups report, Opens repeatedDocument groups ∧
    compareResponses lastAnswer repeatedDocument = .ok report ∧
    (groups.map fun g => ((g.field "tests").items?.getD []).length).sum = 3 ∧
    report.ran = 1 ∧ report.failed = 0 := by
  obtain ⟨report, hreport, hran, hfailed⟩ := compareResponses_repeatedDocument
  exact ⟨_, report, ⟨_, _, _, rfl, rfl, rfl⟩, hreport, rfl, hran, hfailed⟩

end XofConformance.Comparison
