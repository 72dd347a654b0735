import XofConformance.Proofs.Comparison.Index

/-!
# Tests of a document

The tests in a list of groups, in document order, each with the identifiers under which it stands.
A document can be indexed if all its groups have lists of tests and all identifiers are keys; the
tables that come of it are filled test by test and group by group, and a response is compared with
them entry by entry.

    index side (.array groups) = .ok t ↔ Indexable groups ∧ t = tableOf groups
                                                                         (index_eq_ok_iff)
    no identifier is repeated → (tableOf groups).entries = entries groups
                                                                         (entries_tableOf)
-/

namespace XofConformance.Comparison

open Json (sameKey)

/-! ## Entries -/

/-- A test and the identifiers under which it stands. -/
structure Entry where
  tgId : Json
  tcId : Json
  test : Json

/-- The entry stands under the identifiers of another one. -/
def Entry.isAs (a e : Entry) : Bool := sameKey a.tgId e.tgId && sameKey a.tcId e.tcId

/-- The objects in a list. -/
def objectsIn (items : List Json) : List Json := items.filter fun v => v.fields?.isSome

/-- The tests of a group. -/
def testsOf (group : Json) : List Json := objectsIn ((group.field "tests").items?.getD [])

/-- The tests in a list of groups. -/
def entries (groups : List Json) : List Entry :=
  groups.flatMap fun g => (testsOf g).map fun t => ⟨g.field "tgId", t.field "tcId", t⟩

/-- The tests that stand in tables. -/
def Table.entries (table : Table (Table Json)) : List Entry :=
  table.flatMap fun g => g.2.map fun t => ⟨g.1, t.1, t.2⟩

/-- Every group has a list of tests, and the identifiers can be keys. -/
structure Indexable (groups : List Json) : Prop where
  lists : ∀ g ∈ groups, ∃ tests, g.field "tests" = .array tests
  groupKeys : ∀ g ∈ groups, (g.field "tgId").isKey = true
  testKeys : ∀ g ∈ groups, ∀ t ∈ testsOf g, (t.field "tcId").isKey = true

/-- No two groups have the same identifier, and no two tests of a group. -/
structure DistinctIds (groups : List Json) : Prop where
  groupIds : groups.Pairwise fun g g' => sameKey (g.field "tgId") (g'.field "tgId") = false
  testIds : ∀ g ∈ groups,
    (testsOf g).Pairwise fun t t' => sameKey (t.field "tcId") (t'.field "tcId") = false

/-! ## Tables -/

/-- The tests of a group as the entries of a table. -/
def testRows (g : Json) : Table Json := (testsOf g).map fun t => (t.field "tcId", t)

/-- The groups of a list, each with a table of its tests, as the entries of a table. -/
def groupRows (groups : List Json) : Table (Table Json) :=
  groups.map fun g => (g.field "tgId", Table.putAll [] (testRows g))

/-- The tables of a list of groups. -/
def tableOf (groups : List Json) : Table (Table Json) := Table.putAll [] (groupRows groups)

theorem identifier_of_isKey {v : Json} (h : v.isKey = true) : identifier v = .ok v := if_pos h

theorem isKey_of_identifier {v k : Json} (h : identifier v = .ok k) : v.isKey = true ∧ k = v := by
  unfold identifier at h
  split at h
  · next hkey =>
    cases h
    exact ⟨hkey, rfl⟩
  · cases h

theorem testTable_eq_ok_iff {t t' : Table Json} {tests : List Json} :
    testTable t tests = .ok t' ↔ (∀ v ∈ objectsIn tests, (v.field "tcId").isKey = true) ∧
      t' = t.putAll ((objectsIn tests).map fun v => (v.field "tcId", v)) := by
  induction tests generalizing t with
  | nil =>
    unfold testTable
    rw [Except.ok.injEq]
    exact ⟨fun h => ⟨nofun, h.symm⟩, fun h => h.2.symm⟩
  | cons v rest ih =>
    cases v with
    | object fields =>
      have hobjects : objectsIn (.object fields :: rest) = .object fields :: objectsIn rest := rfl
      rw [hobjects, List.forall_mem_cons]
      unfold testTable
      constructor
      · intro h
        obtain ⟨tcId, hid, hrest⟩ := exists_of_bind_eq_ok h
        obtain ⟨hkey, rfl⟩ := isKey_of_identifier hid
        obtain ⟨hkeys, ht⟩ := ih.1 hrest
        exact ⟨⟨hkey, hkeys⟩, ht⟩
      · rintro ⟨⟨hkey, hkeys⟩, ht⟩
        rw [identifier_of_isKey hkey]
        exact ih.2 ⟨hkeys, ht⟩
    | _ => exact ih

theorem testsOf_of_list {g : Json} {tests : List Json} (h : g.field "tests" = .array tests) :
    testsOf g = objectsIn tests := by
  unfold testsOf
  rw [h]
  rfl

theorem indexable_nil : Indexable [] := ⟨nofun, nofun, nofun⟩

theorem indexable_singleton {g : Json} : Indexable [g] ↔
    (∃ tests, g.field "tests" = .array tests) ∧ (g.field "tgId").isKey = true ∧
      ∀ t ∈ testsOf g, (t.field "tcId").isKey = true := by
  constructor
  · rintro ⟨hlists, hgroups, htests⟩
    rw [List.forall_mem_singleton] at hlists hgroups htests
    exact ⟨hlists, hgroups, htests⟩
  · rintro ⟨hlist, hkey, hkeys⟩
    exact ⟨List.forall_mem_singleton.2 hlist, List.forall_mem_singleton.2 hkey,
      List.forall_mem_singleton.2 hkeys⟩

theorem indexable_cons {g : Json} {rest : List Json} :
    Indexable (g :: rest) ↔ Indexable [g] ∧ Indexable rest := by
  constructor
  · rintro ⟨hlists, hgroups, htests⟩
    rw [List.forall_mem_cons] at hlists hgroups htests
    exact ⟨indexable_singleton.2 ⟨hlists.1, hgroups.1, htests.1⟩, hlists.2, hgroups.2, htests.2⟩
  · rintro ⟨hg, hlists, hgroups, htests⟩
    obtain ⟨hlist, hkey, hkeys⟩ := indexable_singleton.1 hg
    exact ⟨List.forall_mem_cons.2 ⟨hlist, hlists⟩, List.forall_mem_cons.2 ⟨hkey, hgroups⟩,
      List.forall_mem_cons.2 ⟨hkeys, htests⟩⟩

/-- The tests of one group go into a table of their own, under the identifier of the group. -/
theorem groupTable_of_indexable {side : Side} {t : Table (Table Json)} {g : Json}
    {rest : List Json} (h : Indexable [g]) : groupTable side t (g :: rest) =
      groupTable side (t.put (g.field "tgId") (Table.putAll [] (testRows g))) rest := by
  obtain ⟨⟨tests, hlist⟩, hkey, hkeys⟩ := indexable_singleton.1 h
  unfold testRows
  rw [testsOf_of_list hlist] at hkeys ⊢
  have htable := (testTable_eq_ok_iff (t := [])).2 ⟨hkeys, rfl⟩
  rw [groupTable]
  simp only [hlist, Json.items?, htable, identifier_of_isKey hkey]
  rfl

theorem groupTable_cons_eq_ok_iff {side : Side} {t t' : Table (Table Json)} {g : Json}
    {rest : List Json} : groupTable side t (g :: rest) = .ok t' ↔ Indexable [g] ∧
      groupTable side (t.put (g.field "tgId") (Table.putAll [] (testRows g))) rest = .ok t' := by
  constructor
  · intro h
    have hindexable : Indexable [g] := by
      rw [groupTable] at h
      split at h
      · cases h
      · next tests htests =>
        have hlist : g.field "tests" = .array tests := by
          cases hfield : g.field "tests" <;> rw [hfield] at htests <;> cases htests
          rfl
        obtain ⟨table, htable, h⟩ := exists_of_bind_eq_ok h
        obtain ⟨tgId, hid, -⟩ := exists_of_bind_eq_ok h
        have hkeys := (testTable_eq_ok_iff.1 htable).1
        rw [← testsOf_of_list hlist] at hkeys
        exact indexable_singleton.2 ⟨⟨tests, hlist⟩, (isKey_of_identifier hid).1, hkeys⟩
    rw [groupTable_of_indexable hindexable] at h
    exact ⟨hindexable, h⟩
  · rintro ⟨hindexable, h⟩
    rw [groupTable_of_indexable hindexable]
    exact h

theorem groupTable_eq_ok_iff {side : Side} {t t' : Table (Table Json)} {groups : List Json} :
    groupTable side t groups = .ok t' ↔ Indexable groups ∧ t' = t.putAll (groupRows groups) := by
  induction groups generalizing t with
  | nil =>
    unfold groupTable
    rw [Except.ok.injEq]
    exact ⟨fun h => ⟨indexable_nil, h.symm⟩, fun h => h.2.symm⟩
  | cons g rest ih =>
    rw [groupTable_cons_eq_ok_iff, ih, ← and_assoc, ← indexable_cons]
    rfl

theorem index_eq_ok_iff {side : Side} {v : Json} {t : Table (Table Json)} :
    index side v = .ok t ↔ ∃ groups, v = .array groups ∧ Indexable groups ∧ t = tableOf groups := by
  unfold index tableOf
  constructor
  · intro h
    split at h
    · next groups =>
      obtain ⟨hgroups, ht⟩ := groupTable_eq_ok_iff.1 h
      exact ⟨groups, rfl, hgroups, ht⟩
    · cases h
  · rintro ⟨groups, rfl, hgroups, ht⟩
    exact groupTable_eq_ok_iff.2 ⟨hgroups, ht⟩

/-! ## Tables without repetitions -/

variable {groups : List Json}

theorem Indexable.keyed_testRows {g : Json} (h : Indexable groups) (hg : g ∈ groups) :
    (testRows g).Keyed := by
  intro p hp
  obtain ⟨t, ht, rfl⟩ := List.mem_map.1 hp
  exact h.testKeys g hg t ht

theorem Indexable.keyed_groupRows (h : Indexable groups) : (groupRows groups).Keyed := by
  intro p hp
  obtain ⟨g, hg, rfl⟩ := List.mem_map.1 hp
  exact h.groupKeys g hg

theorem DistinctIds.putAll_testRows {g : Json} (h : DistinctIds groups) (hg : g ∈ groups) :
    Table.putAll [] (testRows g) = testRows g :=
  Table.putAll_of_distinct (t := []) (List.pairwise_map.2 (h.testIds g hg)) nofun

/-- If no identifier is repeated, the tables are the lists of the tests. -/
theorem DistinctIds.tableOf_eq (h : DistinctIds groups) :
    tableOf groups = groups.map fun g => (g.field "tgId", testRows g) := by
  have hrows : groupRows groups = groups.map fun g => (g.field "tgId", testRows g) :=
    List.map_congr_left fun g hg => by rw [h.putAll_testRows hg]
  unfold tableOf
  rw [hrows]
  exact Table.putAll_of_distinct (t := []) (List.pairwise_map.2 h.groupIds) nofun

theorem DistinctIds.entries_tableOf (h : DistinctIds groups) :
    (tableOf groups).entries = entries groups := by
  rw [h.tableOf_eq]
  unfold Table.entries entries testRows
  rw [List.flatMap_map]
  simp only [List.map_map, Function.comp_def]

/-! ## Lookups -/

theorem Indexable.isKey_of_mem (h : Indexable groups) {a : Entry} (ha : a ∈ entries groups) :
    a.tgId.isKey = true ∧ a.tcId.isKey = true := by
  obtain ⟨g, hg, ha⟩ := List.mem_flatMap.1 ha
  obtain ⟨t, ht, rfl⟩ := List.mem_map.1 ha
  exact ⟨h.groupKeys g hg, h.testKeys g hg t ht⟩

theorem Indexable.keyed_tableOf (h : Indexable groups) : (tableOf groups).Keyed :=
  Table.Keyed.putAll (t := []) nofun h.keyed_groupRows

theorem distinct_tableOf (groups : List Json) : (tableOf groups).Distinct :=
  Table.Distinct.putAll (t := []) .nil _

/-- The test that stands in tables under the identifiers of an entry. -/
def Table.lookup (t : Table (Table Json)) (e : Entry) : Option Json :=
  ((t.find? e.tgId).getD []).find? e.tcId

variable {t : Table (Table Json)} {e : Entry} {test : Json}

theorem mem_of_lookup (h : t.lookup e = some test) :
    ∃ a ∈ t.entries, a.isAs e = true ∧ a.test = test := by
  unfold Table.lookup at h
  cases htests : t.find? e.tgId with
  | none =>
    rw [htests] at h
    cases h
  | some tests =>
    rw [htests] at h
    obtain ⟨tgId, hg, htgId⟩ := Table.mem_of_find? htests
    obtain ⟨tcId, ht, htcId⟩ := Table.mem_of_find? h
    refine ⟨⟨tgId, tcId, test⟩, ?_, ?_, rfl⟩
    · exact List.mem_flatMap.2 ⟨_, hg, List.mem_map.2 ⟨_, ht, rfl⟩⟩
    · unfold Entry.isAs
      rw [htgId, htcId]
      rfl

/-- What stands in the tables of a document is one of its tests, and stands where that does. -/
theorem Indexable.exists_of_mem (h : Indexable groups) (he : e ∈ (tableOf groups).entries) :
    ∃ a ∈ entries groups, e.isAs a = true ∧ a.test = e.test ∧
      e.tgId.isKey = true ∧ e.tcId.isKey = true := by
  obtain ⟨⟨tgId, tests⟩, hrow, he⟩ := List.mem_flatMap.1 he
  obtain ⟨⟨tcId, test⟩, htest, rfl⟩ := List.mem_map.1 he
  have htgKey := h.keyed_tableOf _ hrow
  obtain ⟨p, hp, htgId, rfl⟩ := (Table.mem_putAll h.keyed_groupRows hrow).resolve_left
    List.not_mem_nil
  obtain ⟨g, hg, rfl⟩ := List.mem_map.1 hp
  have htests : (Table.putAll [] (testRows g)).Keyed :=
    Table.Keyed.putAll (t := []) nofun (h.keyed_testRows hg)
  have htcKey := htests _ htest
  obtain ⟨q, hq, htcId, rfl⟩ := (Table.mem_putAll (h.keyed_testRows hg) htest).resolve_left
    List.not_mem_nil
  obtain ⟨t, ht, rfl⟩ := List.mem_map.1 hq
  refine ⟨⟨g.field "tgId", t.field "tcId", t⟩, ?_, ?_, rfl, htgKey, htcKey⟩
  · exact List.mem_flatMap.2 ⟨g, hg, List.mem_map.2 ⟨t, ht, rfl⟩⟩
  · unfold Entry.isAs
    rw [htgId, htcId]
    rfl

theorem Entry.isAs_trans {a b c : Entry} (ha : a.tgId.isKey = true ∧ a.tcId.isKey = true)
    (hab : a.isAs b = true) (hbc : b.isAs c = true) : a.isAs c = true := by
  unfold isAs at *
  rw [Bool.and_eq_true] at *
  rw [Json.sameKey_congr ha.1 hab.1, Json.sameKey_congr ha.2 hab.2]
  exact hbc

theorem Entry.isAs_symm {a b : Entry} (ha : a.tgId.isKey = true ∧ a.tcId.isKey = true)
    (hab : a.isAs b = true) : b.isAs a = true := by
  unfold isAs at *
  rw [Bool.and_eq_true] at *
  exact ⟨Json.sameKey_symm ha.1 hab.1, Json.sameKey_symm ha.2 hab.2⟩

/-- What is found in the tables of a document is one of its tests. -/
theorem Indexable.exists_of_lookup (h : Indexable groups)
    (hfind : (tableOf groups).lookup e = some test) :
    ∃ a ∈ entries groups, a.isAs e = true ∧ a.test = test := by
  obtain ⟨e', he', hsame, rfl⟩ := mem_of_lookup hfind
  obtain ⟨a, ha, has, htest, hkeys⟩ := h.exists_of_mem he'
  have has' := Entry.isAs_symm hkeys has
  exact ⟨a, ha, Entry.isAs_trans (h.isKey_of_mem ha) has' hsame, htest⟩

/-! ## Comparing entry by entry -/

/-- Compares an expected test with the tests of a response. -/
def compareEntry (got : Table (Table Json)) (e : Entry) : Except Fault CaseReport :=
  compareCase e.tgId ((got.find? e.tgId).getD []) e.tcId e.test

variable {got : Table (Table Json)} {cases : List CaseReport} {c : CaseReport}

theorem compareGroup_eq_ok_iff {tgId : Json} {tests : Table Json} :
    compareGroup tgId ((got.find? tgId).getD []) tests = .ok cases ↔
      List.Forall₂ (fun e c => compareEntry got e = .ok c)
        (tests.map fun t => ⟨tgId, t.1, t.2⟩) cases := by
  induction tests generalizing cases with
  | nil =>
    unfold compareGroup
    rw [List.map_nil, List.forall₂_nil_left_iff, Except.ok.injEq, eq_comm]
  | cons p rest ih =>
    rw [List.map_cons, List.forall₂_cons_left_iff]
    unfold compareGroup
    constructor
    · intro h
      obtain ⟨c, hc, h⟩ := exists_of_bind_eq_ok h
      obtain ⟨cs, hcs, h⟩ := exists_of_bind_eq_ok h
      cases h
      exact ⟨c, cs, hc, ih.1 hcs, rfl⟩
    · rintro ⟨c, cs, hc, hcs, rfl⟩
      unfold compareEntry at hc
      rw [hc, ih.2 hcs]
      rfl

theorem compareGroups_eq_ok_iff : compareGroups got t = .ok cases ↔
    List.Forall₂ (fun e c => compareEntry got e = .ok c) t.entries cases := by
  induction t generalizing cases with
  | nil =>
    unfold compareGroups
    rw [Except.ok.injEq, eq_comm]
    exact List.forall₂_nil_left_iff.symm
  | cons g rest ih =>
    unfold compareGroups Table.entries
    rw [List.flatMap_cons]
    constructor
    · intro h
      obtain ⟨cs, hcs, h⟩ := exists_of_bind_eq_ok h
      obtain ⟨more, hmore, h⟩ := exists_of_bind_eq_ok h
      cases h
      exact List.rel_append (compareGroup_eq_ok_iff.1 hcs) (ih.1 hmore)
    · intro h
      obtain ⟨cs, more, rfl, hfirst, hrest⟩ := exists_append_of_forall₂ h
      rw [compareGroup_eq_ok_iff.2 hfirst, ih.2 hrest]
      rfl

/-- A test that the response does not have has failed. -/
theorem compareEntry_of_absent (h : got.lookup e = none) : compareEntry got e =
    .ok { tgId := e.tgId, tcId := e.tcId,
          failure := some { mismatch := .absent, expected := e.test, actual := .null } } := by
  unfold Table.lookup at h
  unfold compareEntry compareCase
  rw [h]
  rfl

theorem compareEntry_of_lookup {actual : Json} (h : got.lookup e = some actual) :
    compareEntry got e = (do
      let mismatch ← compareTest actual e.test
      return { tgId := e.tgId, tcId := e.tcId,
               failure := mismatch.map fun mismatch =>
                 { mismatch, expected := e.test, actual } }) := by
  unfold Table.lookup at h
  unfold compareEntry compareCase
  rw [h]

/-- A case is about the expected test under whose identifiers it stands. -/
theorem about_of_compareEntry (h : compareEntry got e = .ok c) :
    c.tgId = e.tgId ∧ c.tcId = e.tcId ∧ ∀ f, c.failure = some f → f.expected = e.test := by
  cases hlookup : got.lookup e with
  | none =>
    rw [compareEntry_of_absent hlookup] at h
    cases h
    refine ⟨rfl, rfl, fun f hf => ?_⟩
    cases hf
    rfl
  | some actual =>
    rw [compareEntry_of_lookup hlookup] at h
    obtain ⟨m, -, h⟩ := exists_of_bind_eq_ok h
    cases h
    refine ⟨rfl, rfl, fun f hf => ?_⟩
    obtain ⟨mismatch, -, rfl⟩ := Option.map_eq_some_iff.1 hf
    rfl

/-! ## Documents -/

/-- The document has a list of groups. -/
def Opens (d : Document) (groups : List Json) : Prop :=
  ∃ v body version, d.load = .ok v ∧ Envelope.unwrap v = .ok (body, version) ∧
    body.field "testGroups" = .array groups

/-- A response is compared with a document if the tests of both can be indexed, and then entry by
entry. -/
theorem compareResponses_eq_ok_iff {v : Json} {d : Document} {report : Report} :
    compareResponses v d = .ok report ↔ ∃ gotGroups groups, v = .array gotGroups ∧ Opens d groups ∧
      Indexable gotGroups ∧ Indexable groups ∧
      List.Forall₂ (fun e c => compareEntry (tableOf gotGroups) e = .ok c)
        (tableOf groups).entries report.cases := by
  unfold compareResponses
  constructor
  · intro h
    obtain ⟨doc, hload, h⟩ := exists_of_bind_eq_ok h
    obtain ⟨⟨body, version⟩, hunwrap, h⟩ := exists_of_bind_eq_ok h
    simp only at h
    cases hfields : body.fields?.isNone with
    | true =>
      rw [hfields] at h
      cases h
    | false =>
      rw [hfields] at h
      obtain ⟨expected, hexpected, h⟩ := exists_of_bind_eq_ok h
      obtain ⟨got, hgot, h⟩ := exists_of_bind_eq_ok h
      obtain ⟨cases, hcases, h⟩ := exists_of_bind_eq_ok h
      cases h
      obtain ⟨groups, hgroups, hindexable, rfl⟩ := index_eq_ok_iff.1 hexpected
      obtain ⟨gotGroups, rfl, hgotIndexable, rfl⟩ := index_eq_ok_iff.1 hgot
      exact ⟨gotGroups, groups, rfl, ⟨doc, body, version, hload, hunwrap, hgroups⟩, hgotIndexable,
        hindexable, compareGroups_eq_ok_iff.1 hcases⟩
  · rintro ⟨gotGroups, groups, rfl, ⟨doc, body, version, hload, hunwrap, hgroups⟩, hgotIndexable,
      hindexable, hcases⟩
    have hobject : body.fields?.isNone = false := by
      cases body with
      | object fields => rfl
      | _ => cases hgroups
    have hexpected : index .expected (body.field "testGroups") = .ok (tableOf groups) :=
      index_eq_ok_iff.2 ⟨groups, hgroups, hindexable, rfl⟩
    have hgot : index .response (.array gotGroups) = .ok (tableOf gotGroups) :=
      index_eq_ok_iff.2 ⟨gotGroups, rfl, hgotIndexable, rfl⟩
    have hreport := compareGroups_eq_ok_iff.2 hcases
    simp only [hload, hunwrap, hobject, hexpected, hgot, hreport, bind, Except.bind,
      Bool.false_eq_true, if_false, pure, Except.pure]

end XofConformance.Comparison
