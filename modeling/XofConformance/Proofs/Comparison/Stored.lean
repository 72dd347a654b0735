import XofConformance.CommandLine.Run
import XofConformance.Proofs.Comparison.Matching
import XofConformance.Proofs.Comparison.Reflexive
import XofConformance.Proofs.VectorSet.Envelope

/-!
# Responses in files

The answers of a run are integers and digests, so they come back from a file as they were: a test
has the same fields, a group the same identifier and its tests in the same order, and the document
opens to the same groups, with an envelope or without. A response compared with the file that it
was written to has passed every test.

    r.toJson.stored.field? key = r.toJson.field? key         (TestResponse.IsExact.field?_stored)
    compareResponses (.array (groupsJson groups)) d = .ok report with no failures
      if d opens to the stored groups                                      (exists_report_stored)
-/

namespace XofConformance

open Json (Writable Lasting stored)

/-! ## Answers -/

/-- The digest of the round is a text of scalar values, and its length is an integer. -/
structure RoundResult.IsExact (r : RoundResult) : Prop where
  md : ∀ c ∈ r.md, Text.IsScalar c
  outLen : r.outLen.IsInt

/-- The digests of the answer are texts of scalar values, and its numbers are integers. -/
structure TestResponse.IsExact (r : TestResponse) : Prop where
  tcId : r.tcId.IsInt
  md : ∀ c ∈ r.md, Text.IsScalar c
  outLen : r.outLen.IsInt
  rounds : ∀ round ∈ r.rounds, round.IsExact

/-- The identifier of the group is an integer, and its answers are exact. -/
structure GroupResponse.IsExact (g : GroupResponse) : Prop where
  tgId : g.tgId.IsInt
  tests : ∀ r ∈ g.tests, r.IsExact

theorem lasting_number {n : Number} (h : n.IsInt) : Lasting (.number n) := by
  obtain ⟨i, rfl⟩ := h
  exact Json.lasting_int i

theorem textField_sublist (key t : Text) : (textField key t).Sublist [(key, .text t)] := by
  unfold textField
  split
  · exact List.nil_sublist _
  · exact List.Sublist.refl _

theorem numberField_sublist (key : Text) (n : Number) :
    (numberField key n).Sublist [(key, .number n)] := by
  unfold numberField
  split
  · exact List.nil_sublist _
  · exact List.Sublist.refl _

section

variable {r : RoundResult}

/-- The fields that a round can have. -/
def RoundResult.fields (r : RoundResult) : List (Text × Json) :=
  [("md", .text r.md), ("outLen", .number r.outLen)]

/-- A round comes back from a file as it was. -/
theorem RoundResult.IsExact.lasting (h : r.IsExact) : Lasting r.toJson := by
  have hkeys : (["md", "outLen"] : List Text).Nodup := by decide
  have horder : (["md", "outLen"] : List Text).Pairwise fun k l => Text.precedes l k = false := by
    decide
  have hscalar : ∀ k ∈ (["md", "outLen"] : List Text), ∀ c ∈ k, Text.IsScalar c := by decide
  have hfields : ((("md" : Text), Json.text r.md) :: numberField "outLen" r.outLen).Sublist
      r.fields := (numberField_sublist _ _).cons_cons _
  have hsub : (((("md" : Text), Json.text r.md) :: numberField "outLen" r.outLen).map
      Prod.fst).Sublist (["md", "outLen"] : List Text) := hfields.map _
  refine Json.lasting_object (hkeys.sublist hsub) (horder.sublist hsub)
    (fun p hp => hscalar _ (hsub.subset (List.mem_map_of_mem hp))) fun p hp => ?_
  rcases List.mem_cons.1 (hfields.subset hp) with rfl | hp
  · exact Json.lasting_text h.md
  · obtain rfl := List.mem_singleton.1 hp
    exact lasting_number h.outLen

end

section

variable {r : TestResponse}

/-- The fields that an answer can have. -/
def TestResponse.fields (r : TestResponse) : List (Text × Json) :=
  [("tcId", .number r.tcId), ("md", .text r.md), ("outLen", .number r.outLen),
    ("resultsArray", .array (r.rounds.map RoundResult.toJson))]

theorem TestResponse.nodup_keys (r : TestResponse) : (r.fields.map Prod.fst).Nodup := by
  have hkeys : (["tcId", "md", "outLen", "resultsArray"] : List Text).Nodup := by decide
  exact hkeys

/-- An answer has some of the fields that it can have. -/
theorem TestResponse.exists_fields (r : TestResponse) :
    ∃ fields, r.toJson = .object fields ∧ fields.Sublist r.fields := by
  have hanswer := (textField_sublist "md" r.md).append (numberField_sublist "outLen" r.outLen)
  refine ⟨_, rfl, .cons_cons _ (hanswer.append ?_)⟩
  split
  · exact List.nil_sublist _
  · exact List.Sublist.refl _

theorem TestResponse.IsExact.lasting_of_mem (h : r.IsExact) :
    ∀ p ∈ r.fields, Lasting p.2 := by
  unfold TestResponse.fields
  rw [List.forall_mem_cons, List.forall_mem_cons, List.forall_mem_cons, List.forall_mem_singleton]
  exact ⟨lasting_number h.tcId, Json.lasting_text h.md, lasting_number h.outLen,
    Json.lasting_array (List.forall_mem_map.2 fun round hround => (h.rounds round hround).lasting)⟩

theorem TestResponse.IsExact.writable (h : r.IsExact) : Writable r.toJson := by
  have hscalar : ∀ k ∈ (["tcId", "md", "outLen", "resultsArray"] : List Text),
      ∀ c ∈ k, Text.IsScalar c := by decide
  obtain ⟨fields, hfields, hsub⟩ := r.exists_fields
  rw [hfields]
  exact .object_of_sublist (hsub.map Prod.fst) r.nodup_keys hscalar fun p hp =>
    (h.lasting_of_mem p (hsub.subset hp)).writable

/-- An answer has the same fields when it comes back from a file. -/
theorem TestResponse.IsExact.field?_stored (h : r.IsExact) (key : Text) :
    r.toJson.stored.field? key = r.toJson.field? key := by
  have hwritable := h.writable
  obtain ⟨fields, hfields, hsub⟩ := r.exists_fields
  rw [hfields] at hwritable ⊢
  exact Json.field?_stored_of_lasting hwritable
    (fun p hp => h.lasting_of_mem p (hsub.subset hp)) key

/-- The rounds of an answer are a list. -/
theorem TestResponse.exists_rounds {v : Json} (h : r.toJson.field? "resultsArray" = some v) :
    ∃ es, v = .array es := by
  obtain ⟨fields, hfields, hsub⟩ := r.exists_fields
  rw [hfields] at h
  have hmem := hsub.subset ((Json.lookup_eq_some_iff (r.nodup_keys.sublist (hsub.map _))).1 h)
  have hfull : Json.lookup "resultsArray" r.fields = some v :=
    (Json.lookup_eq_some_iff r.nodup_keys).2 hmem
  exact ⟨_, (Option.some.inj hfull).symm⟩

/-- An answer agrees with what comes back of it. -/
theorem TestResponse.IsExact.agrees (h : r.IsExact) :
    Comparison.Agrees r.toJson r.toJson.stored :=
  Comparison.agrees_of_field?_eq h.writable (fun _ hv => TestResponse.exists_rounds hv)
    h.field?_stored

end

/-! ## Groups -/

section

variable {g : GroupResponse}

theorem GroupResponse.IsExact.writable (h : g.IsExact) : Writable g.toJson := by
  have hkeys : (["tgId", "tests"] : List Text).Nodup := by decide
  have hscalar : ∀ k ∈ (["tgId", "tests"] : List Text), ∀ c ∈ k, Text.IsScalar c := by decide
  refine .object_of_sublist (List.Sublist.refl _) hkeys hscalar ?_
  rw [List.forall_mem_cons, List.forall_mem_singleton]
  exact ⟨(lasting_number h.tgId).writable,
    .array (List.forall_mem_map.2 fun r hr => (h.tests r hr).writable)⟩

theorem GroupResponse.IsExact.field_tgId_stored (h : g.IsExact) :
    g.toJson.stored.field "tgId" = .number g.tgId :=
  Comparison.field_of_field? (Json.field?_stored h.writable "tgId")

theorem GroupResponse.IsExact.field_tests_stored (h : g.IsExact) :
    g.toJson.stored.field "tests" = .array (g.tests.map fun r => r.toJson.stored) := by
  have htests : g.toJson.stored.field? "tests" =
      some (Json.array (g.tests.map TestResponse.toJson)).stored :=
    Json.field?_stored h.writable "tests"
  rw [Comparison.field_of_field? htests, Json.stored_array, List.map_map]
  rfl

end

namespace Comparison

/-- Groups are shown with their identifiers and a list of their tests, and tests as objects with
theirs. -/
structure Shows (group : GroupResponse → Json) (test : TestResponse → Json)
    (groups : List GroupResponse) : Prop where
  tgId : ∀ g ∈ groups, (group g).field "tgId" = .number g.tgId
  tests : ∀ g ∈ groups, (group g).field "tests" = .array (g.tests.map test)
  tcId : ∀ g ∈ groups, ∀ r ∈ g.tests, (test r).field "tcId" = .number r.tcId
  objects : ∀ r, (test r).fields?.isSome = true

/-- All answers are exact, and no identifier is repeated. -/
structure Identified (groups : List GroupResponse) : Prop where
  exact : ∀ g ∈ groups, g.IsExact
  groupIds : (groups.map (·.tgId)).Nodup
  testIds : ∀ g ∈ groups, (g.tests.map (·.tcId)).Nodup

variable {groups : List GroupResponse} {group : GroupResponse → Json} {test : TestResponse → Json}

theorem Shows.testsOf_eq (h : Shows group test groups) {g : GroupResponse} (hg : g ∈ groups) :
    testsOf (group g) = g.tests.map test := by
  rw [testsOf_of_list (h.tests g hg)]
  refine List.filter_eq_self.2 fun v hv => ?_
  obtain ⟨r, -, rfl⟩ := List.mem_map.1 hv
  exact h.objects r

theorem Shows.entries_eq (h : Shows group test groups) : entries (groups.map group) =
    groups.flatMap fun g => g.tests.map fun r => ⟨.number g.tgId, .number r.tcId, test r⟩ := by
  unfold entries
  rw [List.flatMap_map]
  refine List.flatMap_congr fun g hg => ?_
  rw [h.testsOf_eq hg, h.tgId g hg, List.map_map]
  refine List.map_congr_left fun r hr => ?_
  rw [Function.comp_apply, h.tcId g hg r hr]

theorem Shows.indexable (h : Shows group test groups) : Indexable (groups.map group) where
  lists := List.forall_mem_map.2 fun g hg => ⟨_, h.tests g hg⟩
  groupKeys := List.forall_mem_map.2 fun g hg => by rw [h.tgId g hg]; rfl
  testKeys := List.forall_mem_map.2 fun g hg => by
    rw [h.testsOf_eq hg]
    exact List.forall_mem_map.2 fun r hr => by rw [h.tcId g hg r hr]; rfl

/-- Integers that differ are different keys. -/
theorem sameKey_number_of_ne {m n : Number} (hm : m.IsInt) (hn : n.IsInt) (hne : m ≠ n) :
    Json.sameKey (.number m) (.number n) = false := by
  obtain ⟨i, rfl⟩ := hm
  obtain ⟨j, rfl⟩ := hn
  rw [← Bool.not_eq_true, Json.sameKey_iff rfl]
  intro he
  have hworth : (Number.int i).worth = (Number.int j).worth :=
    Json.Key.worth.inj (Option.some.inj he)
  exact hne (congrArg Number.int (Number.ofInt_inj.1 (Number.Worth.finite.inj hworth)))

theorem Shows.distinctIds (h : Shows group test groups) (hids : Identified groups) :
    DistinctIds (groups.map group) where
  groupIds := by
    refine List.pairwise_map.2 ((List.pairwise_map.1 hids.groupIds).imp_of_mem ?_)
    intro g g' hg hg' hne
    rw [h.tgId g hg, h.tgId g' hg']
    exact sameKey_number_of_ne (hids.exact g hg).tgId (hids.exact g' hg').tgId hne
  testIds := List.forall_mem_map.2 fun g hg => by
    rw [h.testsOf_eq hg]
    refine List.pairwise_map.2 ((List.pairwise_map.1 (hids.testIds g hg)).imp_of_mem ?_)
    intro r r' hr hr' hne
    rw [h.tcId g hg r hr, h.tcId g hg r' hr']
    exact sameKey_number_of_ne ((hids.exact g hg).tests r hr).tcId
      ((hids.exact g hg).tests r' hr').tcId hne

/-- Groups and tests as they are written. -/
theorem shows_toJson (groups : List GroupResponse) :
    Shows GroupResponse.toJson TestResponse.toJson groups where
  tgId _ _ := rfl
  tests _ _ := rfl
  tcId _ _ _ _ := rfl
  objects _ := rfl

/-- Groups and tests as they come back from a file. -/
theorem shows_stored (h : ∀ g ∈ groups, g.IsExact) :
    Shows (fun g => g.toJson.stored) (fun r => r.toJson.stored) groups where
  tgId g hg := (h g hg).field_tgId_stored
  tests g hg := (h g hg).field_tests_stored
  tcId g hg r hr := field_of_field? (((h g hg).tests r hr).field?_stored "tcId")
  objects r := Json.isSome_fields?_stored r.toJson

theorem expectable_stored (h : Identified groups) :
    Expectable (groups.map fun g => g.toJson.stored) := by
  have hshows := shows_stored h.exact
  have htest : ∀ g ∈ groups, ∀ tests, g.toJson.stored.field "tests" = .array tests →
      ∀ t ∈ tests, ∃ r ∈ g.tests, t = r.toJson.stored := by
    intro g hg tests htests t ht
    rw [hshows.tests g hg] at htests
    cases htests
    obtain ⟨r, hr, rfl⟩ := List.mem_map.1 ht
    exact ⟨r, hr, rfl⟩
  refine ⟨hshows.indexable, hshows.distinctIds h, List.forall_mem_map.2 ?_,
    List.forall_mem_map.2 ?_⟩
  · intro g hg tests htests t ht
    obtain ⟨r, -, rfl⟩ := htest g hg tests htests t ht
    exact hshows.objects r
  · intro g hg tests htests t ht v hv
    obtain ⟨r, hr, rfl⟩ := htest g hg tests htests t ht
    rw [((h.exact g hg).tests r hr).field?_stored] at hv
    exact r.exists_rounds hv

/-- Every test that comes back is answered by the test that was written. -/
theorem exists_entry_agrees (h : ∀ g ∈ groups, g.IsExact) {e : Entry}
    (he : e ∈ entries (groups.map fun g => g.toJson.stored)) :
    ∃ a ∈ entries (groups.map GroupResponse.toJson), a.isAs e = true ∧ Agrees a.test e.test := by
  rw [(shows_stored h).entries_eq] at he
  rw [(shows_toJson groups).entries_eq]
  obtain ⟨g, hg, he⟩ := List.mem_flatMap.1 he
  obtain ⟨r, hr, rfl⟩ := List.mem_map.1 he
  refine ⟨_, List.mem_flatMap.2 ⟨g, hg, List.mem_map.2 ⟨r, hr, rfl⟩⟩, ?_,
    ((h g hg).tests r hr).agrees⟩
  unfold Entry.isAs
  rw [Json.sameKey_refl rfl, Json.sameKey_refl rfl]
  rfl

/-- A response compared with a document that opens to what comes back of it has passed every
test. -/
theorem exists_report_stored (h : Identified groups) {d : Document}
    (hd : Opens d (groups.map fun g => g.toJson.stored)) :
    ∃ report, compareResponses (.array (CommandLine.groupsJson groups)) d = .ok report ∧
      report.ran = (groups.flatMap (·.tests)).length ∧
      report.passed = (groups.flatMap (·.tests)).length ∧ report.failed = 0 := by
  have hgot := shows_toJson groups
  have hexpectable := expectable_stored h
  obtain ⟨report, hreport, ⟨hcases, hran, -⟩, -⟩ :=
    exists_matches hd hgot.indexable (hgot.distinctIds h) hexpectable
  rw [← hexpectable.entries_eq] at hcases
  have hcount : report.ran = (groups.flatMap (·.tests)).length := by
    rw [hran.2, ← hcases.length_eq, (shows_stored h.exact).entries_eq, List.length_flatMap,
      List.length_flatMap]
    simp only [List.length_map]
  have hnone : ∀ c ∈ report.cases, c.failure.isSome = false := by
    intro c hc
    obtain ⟨e, he, -, -, hjudged⟩ := exists_left_of_forall₂ hcases hc
    rw [hjudged.2 (exists_entry_agrees h.exact he)]
    rfl
  have hfailed : report.failed = 0 := by
    unfold Report.failed
    rw [List.filter_eq_nil_iff.2 fun c hc => by rw [hnone c hc]; exact Bool.false_ne_true]
    rfl
  exact ⟨report, hreport, hcount, by omega, hfailed⟩

/-- The file to which a response is written opens to what comes back of it. -/
theorem exists_opens_file {vs : VectorSet} (algorithm : Text) (hid : ∀ n ∈ vs.vsId, n.IsInt)
    (h : ∀ g ∈ groups, g.IsExact) :
    ∃ b, (Json.fileText (Envelope.wrap vs algorithm (CommandLine.groupsJson groups))).toUtf8? =
        some b ∧ Opens (.bytes b) (groups.map fun g => g.toJson.stored) := by
  have hwritable : ∀ v ∈ CommandLine.groupsJson groups, Writable v :=
    List.forall_mem_map.2 fun g hg => (h g hg).writable
  obtain ⟨b, hb, hload⟩ := Json.load_fileText (Envelope.writable_wrap hid hwritable)
  obtain ⟨body, version, hunwrap, hgroups⟩ := Envelope.unwrap_stored_wrap hid hwritable
  have hmap : (CommandLine.groupsJson groups).map stored = groups.map fun g => g.toJson.stored :=
    List.map_map
  rw [hmap] at hgroups
  exact ⟨b, hb, _, body, version, hload, hunwrap, hgroups⟩

end Comparison

end XofConformance
