import Mathlib.Data.List.Perm.Basic
import XofConformance.Proofs.Comparison.Agreement

/-!
# Matching by identifiers

What a comparison comes to if no identifier is repeated: every expected test has one case, in
document order, and it has passed if and only if the response has a test under its identifiers that
agrees with it. The order in which the response gives its groups and tests does not matter, and the
order of the expected tests is only that of the cases.

    lookup in the tables of a document is membership   (DistinctIds.lookup_eq_some_iff)
    compareResponses (.array gotGroups) d = .ok report, and report.Matches gotGroups groups
                                                                       (compareResponses_matches)
-/

namespace XofConformance.Comparison

open Json (sameKey)

variable {gotGroups groups groups' : List Json} {e : Entry} {test : Json}

/-! ## Lookups -/

theorem DistinctIds.lookup_of_mem (h : DistinctIds groups) (hkeys : Indexable groups) {a : Entry}
    (ha : a ∈ entries groups) (hsame : a.isAs e = true) :
    (tableOf groups).lookup e = some a.test := by
  obtain ⟨g, hg, ha⟩ := List.mem_flatMap.1 ha
  obtain ⟨t, ht, rfl⟩ := List.mem_map.1 ha
  unfold Entry.isAs at hsame
  rw [Bool.and_eq_true] at hsame
  have hgroup : (tableOf groups).find? e.tgId = some (testRows g) := by
    rw [Table.find?_eq_some_iff hkeys.keyed_tableOf (distinct_tableOf groups)]
    refine ⟨g.field "tgId", ?_, hsame.1⟩
    rw [h.tableOf_eq]
    exact List.mem_map.2 ⟨g, hg, rfl⟩
  have htest : (testRows g).find? e.tcId = some t := by
    rw [Table.find?_eq_some_iff (hkeys.keyed_testRows hg) (List.pairwise_map.2 (h.testIds g hg))]
    exact ⟨t.field "tcId", List.mem_map.2 ⟨t, ht, rfl⟩, hsame.2⟩
  unfold Table.lookup
  rw [hgroup]
  exact htest

theorem DistinctIds.lookup_eq_some_iff (h : DistinctIds groups) (hkeys : Indexable groups) :
    (tableOf groups).lookup e = some test ↔
      ∃ a ∈ entries groups, a.isAs e = true ∧ a.test = test := by
  constructor
  · exact hkeys.exists_of_lookup
  · rintro ⟨a, ha, hsame, rfl⟩
    exact h.lookup_of_mem hkeys ha hsame

/-! ## Cases -/

/-- The case is about the expected test, and has passed if and only if the response has a test under
its identifiers that agrees with it. -/
def Judges (gotGroups : List Json) (e : Entry) (c : CaseReport) : Prop :=
  c.tgId = e.tgId ∧ c.tcId = e.tcId ∧ (c.failure = none ↔
    ∃ a ∈ entries gotGroups, a.isAs e = true ∧ Agrees a.test e.test)

/-- Comparing an expected test gives a case that judges it. -/
theorem exists_judges (h : DistinctIds gotGroups) (hkeys : Indexable gotGroups)
    (hrounds : ∀ v, e.test.field? "resultsArray" = some v → ∃ es, v = .array es) :
    ∃ c, compareEntry (tableOf gotGroups) e = .ok c ∧ Judges gotGroups e c := by
  cases hlookup : (tableOf gotGroups).lookup e with
  | none =>
    refine ⟨_, compareEntry_of_absent hlookup, rfl, rfl, iff_of_false nofun ?_⟩
    rintro ⟨a, ha, hsame, -⟩
    rw [h.lookup_of_mem hkeys ha hsame] at hlookup
    cases hlookup
  | some actual =>
    obtain ⟨m, hm, hnone⟩ := compareTest_spec actual hrounds
    have hcompare := compareEntry_of_lookup hlookup
    rw [hm] at hcompare
    refine ⟨_, hcompare, rfl, rfl, ?_⟩
    show m.map _ = none ↔ _
    rw [Option.map_eq_none_iff, hnone]
    constructor
    · intro hagrees
      obtain ⟨a, ha, hsame, rfl⟩ := hkeys.exists_of_lookup hlookup
      exact ⟨a, ha, hsame, hagrees⟩
    · rintro ⟨a, ha, hsame, hagrees⟩
      rw [h.lookup_of_mem hkeys ha hsame] at hlookup
      cases hlookup
      exact hagrees

theorem Report.length_failures (r : Report) : r.failures.length = r.failed := by
  unfold Report.failures Report.failed
  induction r.cases with
  | nil => rfl
  | cons c rest ih => cases h : c.failure <;> simp [h, ih]

/-! ## Rearrangements -/

/-- The same group with its tests in another order. -/
def SameTests (g g' : Json) : Prop :=
  g'.field "tgId" = g.field "tgId" ∧ ∃ tests tests', g.field "tests" = .array tests ∧
    g'.field "tests" = .array tests' ∧ tests.Perm tests'

/-- The same groups in another order, and the tests of each in another order. -/
def Rearranges (groups groups' : List Json) : Prop :=
  ∃ mid, groups.Perm mid ∧ List.Forall₂ SameTests mid groups'

theorem SameTests.testsOf_perm {g g' : Json} (h : SameTests g g') :
    (testsOf g).Perm (testsOf g') := by
  obtain ⟨-, tests, tests', htests, htests', hperm⟩ := h
  rw [testsOf_of_list htests, testsOf_of_list htests']
  exact hperm.filter _

theorem Rearranges.entries_perm (h : Rearranges groups groups') :
    (entries groups).Perm (entries groups') := by
  obtain ⟨mid, hperm, hsame⟩ := h
  refine (hperm.flatMap_right _).trans ?_
  induction hsame generalizing groups with
  | nil => exact .nil
  | cons hg hrest ih =>
    unfold entries at ih ⊢
    rw [List.flatMap_cons, List.flatMap_cons]
    refine List.Perm.append ?_ (ih (List.Perm.refl _))
    rw [hg.1]
    exact hg.testsOf_perm.map _

theorem Rearranges.exists_group (h : Rearranges groups groups') {g' : Json} (hg' : g' ∈ groups') :
    ∃ g ∈ groups, SameTests g g' := by
  obtain ⟨mid, hperm, hsame⟩ := h
  obtain ⟨g, hg, hsame⟩ := exists_left_of_forall₂ hsame hg'
  exact ⟨g, hperm.mem_iff.2 hg, hsame⟩

theorem Rearranges.map_tgId_perm {α : Type} (h : Rearranges groups groups') (f : Json → α) :
    (groups.map fun g => f (g.field "tgId")).Perm (groups'.map fun g => f (g.field "tgId")) := by
  obtain ⟨mid, hperm, hsame⟩ := h
  have hids : (groups'.map fun g => f (g.field "tgId")) = mid.map fun g => f (g.field "tgId") :=
    map_eq_of_forall₂ hsame fun _ _ hg => congrArg f hg.1
  rw [hids]
  exact hperm.map _

theorem Rearranges.indexable (h : Rearranges groups groups') (hkeys : Indexable groups) :
    Indexable groups' := by
  refine ⟨fun g' hg' => ?_, fun g' hg' => ?_, fun g' hg' t ht => ?_⟩ <;>
    obtain ⟨g, hg, hsame⟩ := h.exists_group hg'
  · obtain ⟨-, -, tests', -, htests', -⟩ := hsame
    exact ⟨tests', htests'⟩
  · rw [hsame.1]
    exact hkeys.groupKeys g hg
  · exact hkeys.testKeys g hg t (hsame.testsOf_perm.mem_iff.2 ht)

theorem Rearranges.distinctIds (h : Rearranges groups groups') (hkeys : Indexable groups)
    (hids : DistinctIds groups) : DistinctIds groups' := by
  have hkeys' := h.indexable hkeys
  constructor
  · have hgroups := hids.groupIds
    rw [Json.pairwise_sameKey_iff hkeys.groupKeys] at hgroups
    rw [Json.pairwise_sameKey_iff hkeys'.groupKeys]
    exact (h.map_tgId_perm Json.key?).nodup_iff.1 hgroups
  · intro g' hg'
    obtain ⟨g, hg, hsame⟩ := h.exists_group hg'
    have htests := hids.testIds g hg
    rw [Json.pairwise_sameKey_iff (hkeys.testKeys g hg)] at htests
    rw [Json.pairwise_sameKey_iff (hkeys'.testKeys g' hg')]
    exact (hsame.testsOf_perm.map _).nodup_iff.1 htests

/-- The order of a response does not change what is found in it. -/
theorem Rearranges.lookup_eq (h : Rearranges groups groups') (hkeys : Indexable groups)
    (hids : DistinctIds groups) (e : Entry) :
    (tableOf groups').lookup e = (tableOf groups).lookup e := by
  ext test
  rw [(h.distinctIds hkeys hids).lookup_eq_some_iff (h.indexable hkeys),
    hids.lookup_eq_some_iff hkeys]
  simp only [h.entries_perm.mem_iff]

theorem compareEntry_congr {got got' : Table (Table Json)} (h : got'.lookup e = got.lookup e) :
    compareEntry got' e = compareEntry got e := by
  cases hlookup : got.lookup e with
  | none => rw [compareEntry_of_absent hlookup, compareEntry_of_absent (h.trans hlookup)]
  | some actual => rw [compareEntry_of_lookup hlookup, compareEntry_of_lookup (h.trans hlookup)]

/-! ## Expected results -/

/-- Everything in the lists of tests. -/
def listed (groups : List Json) : List Entry :=
  groups.flatMap fun g =>
    ((g.field "tests").items?.getD []).map fun t => ⟨g.field "tgId", t.field "tcId", t⟩

/-- A document whose identifiers are distinct keys, whose tests are objects, and in which rounds are
lists. -/
structure Expectable (groups : List Json) : Prop where
  indexable : Indexable groups
  distinct : DistinctIds groups
  objects : ∀ g ∈ groups, ∀ tests, g.field "tests" = .array tests →
    ∀ t ∈ tests, t.fields?.isSome = true
  rounds : ∀ g ∈ groups, ∀ tests, g.field "tests" = .array tests → ∀ t ∈ tests,
    ∀ v, t.field? "resultsArray" = some v → ∃ es, v = .array es

theorem Expectable.testsOf_eq (h : Expectable groups) {g : Json} (hg : g ∈ groups) :
    testsOf g = (g.field "tests").items?.getD [] := by
  obtain ⟨tests, htests⟩ := h.indexable.lists g hg
  rw [testsOf_of_list htests, htests]
  exact List.filter_eq_self.2 (h.objects g hg tests htests)

theorem Expectable.entries_eq (h : Expectable groups) : entries groups = listed groups := by
  unfold entries listed
  refine List.flatMap_congr fun g hg => ?_
  rw [h.testsOf_eq hg]

theorem Expectable.roundsOf (h : Expectable groups) (he : e ∈ entries groups) {v : Json}
    (hv : e.test.field? "resultsArray" = some v) : ∃ es, v = .array es := by
  obtain ⟨g, hg, he⟩ := List.mem_flatMap.1 he
  obtain ⟨t, ht, rfl⟩ := List.mem_map.1 he
  obtain ⟨tests, htests⟩ := h.indexable.lists g hg
  rw [h.testsOf_eq hg, htests] at ht
  exact h.rounds g hg tests htests t ht v hv

theorem Expectable.rearranges (h : Expectable groups) (hmoved : Rearranges groups groups') :
    Expectable groups' := by
  have hsource : ∀ g' ∈ groups', ∀ tests', g'.field "tests" = .array tests' → ∃ g ∈ groups,
      ∃ tests, g.field "tests" = .array tests ∧ tests.Perm tests' := by
    intro g' hg' tests' htests'
    obtain ⟨g, hg, -, tests, tests'', htests, htests'', hperm⟩ := hmoved.exists_group hg'
    rw [htests'] at htests''
    cases htests''
    exact ⟨g, hg, tests, htests, hperm⟩
  refine ⟨hmoved.indexable h.indexable, hmoved.distinctIds h.indexable h.distinct,
    fun g' hg' tests' htests' t ht => ?_, fun g' hg' tests' htests' t ht => ?_⟩
  · obtain ⟨g, hg, tests, htests, hperm⟩ := hsource g' hg' tests' htests'
    exact h.objects g hg tests htests t (hperm.mem_iff.2 ht)
  · obtain ⟨g, hg, tests, htests, hperm⟩ := hsource g' hg' tests' htests'
    exact h.rounds g hg tests htests t (hperm.mem_iff.2 ht)

/-! ## Top theorem -/

/-- The report has one case for every expected test, in document order, which has passed if and only
if the response has a test under its identifiers that agrees with it. -/
structure Report.Matches (gotGroups groups : List Json) (r : Report) : Prop where
  cases : List.Forall₂ (Judges gotGroups) (listed groups) r.cases
  ran : r.ran = r.passed + r.failed ∧ r.ran = r.cases.length
  failed : r.failed = r.failures.length

/-- A response is compared with the document entry by entry, and the report matches both. -/
theorem exists_matches {d : Document} (hd : Opens d groups) (hgot : Indexable gotGroups)
    (hids : DistinctIds gotGroups) (h : Expectable groups) :
    ∃ report, compareResponses (.array gotGroups) d = .ok report ∧
      report.Matches gotGroups groups ∧
      List.Forall₂ (fun e c => compareEntry (tableOf gotGroups) e = .ok c) (entries groups)
        report.cases := by
  have heach : ∀ e ∈ entries groups, ∃ c,
      compareEntry (tableOf gotGroups) e = .ok c ∧ Judges gotGroups e c := fun e he =>
    exists_judges hids hgot fun v hv => h.roundsOf he hv
  obtain ⟨cases, hcases⟩ := exists_forall₂ heach
  have hcompared : List.Forall₂ (fun e c => compareEntry (tableOf gotGroups) e = .ok c)
      (entries groups) cases := hcases.imp fun e c hc => hc.1
  refine ⟨⟨cases⟩, ?_, ?_, hcompared⟩
  · refine compareResponses_eq_ok_iff.2 ⟨gotGroups, groups, rfl, hd, hgot, h.indexable, ?_⟩
    rw [h.distinct.entries_tableOf]
    exact hcompared
  · rw [h.entries_eq] at hcases
    exact {
      cases := hcases.imp fun e c hc => hc.2
      ran := ⟨Report.ran_eq_passed_add_failed _, rfl⟩
      failed := (Report.length_failures _).symm }

/-- Entries in another order have their cases in another order. -/
theorem cases_perm {got : Table (Table Json)} {es es' : List Entry} {cs cs' : List CaseReport}
    (hperm : es.Perm es') (h : List.Forall₂ (fun e c => compareEntry got e = .ok c) es cs)
    (h' : List.Forall₂ (fun e c => compareEntry got e = .ok c) es' cs') : cs'.Perm cs := by
  have hunique : Relator.RightUnique fun e c => compareEntry got e = .ok c := by
    intro e c c' hc hc'
    rw [hc] at hc'
    exact Except.ok.inj hc'
  exact (List.rel_perm_imp hunique h h' hperm).symm

/-- A response is compared with every document in which no identifier is repeated, and the report
matches both. It is the same for every order of the response, and another order of the document only
changes the order of the cases. -/
theorem compareResponses_matches {d : Document} (hd : Opens d groups)
    (hgot : Indexable gotGroups) (hids : DistinctIds gotGroups) (h : Expectable groups) :
    ∃ report, compareResponses (.array gotGroups) d = .ok report ∧
      report.Matches gotGroups groups ∧
      (∀ gotGroups', Rearranges gotGroups gotGroups' →
        compareResponses (.array gotGroups') d = .ok report) ∧
      ∀ d' groups', Opens d' groups' → Rearranges groups groups' → ∃ report',
        compareResponses (.array gotGroups) d' = .ok report' ∧
        report'.Matches gotGroups groups' ∧ report'.cases.Perm report.cases := by
  obtain ⟨report, hreport, hmatches, hcases⟩ := exists_matches hd hgot hids h
  refine ⟨report, hreport, hmatches, fun gotGroups' hmoved => ?_, fun d' groups' hd' hmoved => ?_⟩
  · refine compareResponses_eq_ok_iff.2
      ⟨gotGroups', groups, rfl, hd, hmoved.indexable hgot, h.indexable, ?_⟩
    rw [h.distinct.entries_tableOf]
    refine hcases.imp fun e c hc => ?_
    rw [compareEntry_congr (hmoved.lookup_eq hgot hids e)]
    exact hc
  · obtain ⟨report', hreport', hmatches', hcases'⟩ :=
      exists_matches hd' hgot hids (h.rearranges hmoved)
    exact ⟨report', hreport', hmatches', cases_perm hmoved.entries_perm hcases hcases'⟩

/-- A group with a digest and a chain of one round. -/
def expectedGroup : Json :=
  .object [("tgId", .int 1), ("tests", .array [
    .object [("tcId", .int 1), ("md", .text "AB")],
    .object [("tcId", .text "1"), ("resultsArray", .array [.object [("md", .text "CD")]])]])]

/-- A response to it in another order, in which the digest is in lower case and the round
differs. -/
def answeredGroup : Json :=
  .object [("tgId", .int 1), ("tests", .array [
    .object [("tcId", .text "1"), ("resultsArray", .array [.object [("md", .text "ce")]])],
    .object [("tcId", .int 1), ("md", .text "ab")]])]

theorem indexable_answeredGroup : Indexable [answeredGroup] where
  lists := List.forall_mem_singleton.2 ⟨_, rfl⟩
  groupKeys := by decide +kernel
  testKeys := by decide +kernel

theorem distinctIds_answeredGroup : DistinctIds [answeredGroup] where
  groupIds := by decide +kernel
  testIds := by decide +kernel

theorem expectable_expectedGroup : Expectable [expectedGroup] where
  indexable :=
    { lists := List.forall_mem_singleton.2 ⟨_, rfl⟩
      groupKeys := by decide +kernel
      testKeys := by decide +kernel }
  distinct :=
    { groupIds := by decide +kernel
      testIds := by decide +kernel }
  objects := List.forall_mem_singleton.2 fun tests htests => by
    cases htests
    decide +kernel
  rounds := List.forall_mem_singleton.2 fun tests htests => by
    cases htests
    refine List.forall_mem_cons.2 ⟨fun v hv => ?_, List.forall_mem_singleton.2 fun v hv => ?_⟩
    · cases hv
    · cases hv
      exact ⟨_, rfl⟩

theorem answeredGroup_matches :
    Opens (.value (.object [("testGroups", .array [expectedGroup])])) [expectedGroup] ∧
    Indexable [answeredGroup] ∧ DistinctIds [answeredGroup] ∧ Expectable [expectedGroup] ∧
    ∃ report, compareResponses (.array [answeredGroup])
        (.value (.object [("testGroups", .array [expectedGroup])])) = .ok report ∧
      report.Matches [answeredGroup] [expectedGroup] := by
  have hopens : Opens (.value (.object [("testGroups", .array [expectedGroup])]))
      [expectedGroup] := ⟨_, _, _, rfl, rfl, rfl⟩
  obtain ⟨report, hreport, hmatches, -⟩ := compareResponses_matches hopens
    indexable_answeredGroup distinctIds_answeredGroup expectable_expectedGroup
  exact ⟨hopens, indexable_answeredGroup, distinctIds_answeredGroup, expectable_expectedGroup,
    report, hreport, hmatches⟩

end XofConformance.Comparison
