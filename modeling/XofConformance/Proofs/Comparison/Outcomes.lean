import XofConformance.Proofs.Comparison.Coverage
import XofConformance.Proofs.Comparison.Stored
import XofConformance.Proofs.VectorSet.Framing

/-!
# Outcomes of a comparison

What comes of comparing answers with any document whatever. It may be refused as bad input: it is
not loaded or not opened, its body is no object, its groups are no list, or those up to a group
without a list of tests can be indexed. And it may trip the comparison up in two ways that are not
foreseen: an array or an object stands where an identifier has to, or something that has no length
stands for the rounds that the rounds of an answer are counted against. In all other cases there is
a report.

    comparison = .error (.input why) ↔ Refuses d why
    comparison = .error (.defect why) ↔ Trips gotGroups d why
    comparison = .ok report, for some report, ↔ neither                 (compareResponses_outcomes)
-/

namespace XofConformance.Comparison

open Json (sameKey)

variable {groups gotGroups : List Json} {g got expected : Json} {f : Fault} {d : Document}

/-! ## Indexing -/

/-- The group has a list of tests. -/
def HasTests (g : Json) : Prop := ∃ tests, g.field "tests" = .array tests

/-- An array or an object stands where an identifier of the group or of one of its tests has to. -/
def Unkeyed (g : Json) : Prop :=
  (g.field "tgId").isKey = false ∨ ∃ t ∈ testsOf g, (t.field "tcId").isKey = false

theorem identifier_of_not_isKey {v : Json} (h : v.isKey = false) :
    identifier v = .error (.defect .unhashable) :=
  if_neg (Bool.eq_false_iff.1 h)

/-- The tests of a group are indexed unless an identifier is no key. -/
theorem testTable_of_unkeyed {t : Table Json} {tests : List Json}
    (h : ∃ v ∈ objectsIn tests, (v.field "tcId").isKey = false) :
    testTable t tests = .error (.defect .unhashable) := by
  induction tests generalizing t with
  | nil => simp [objectsIn] at h
  | cons v rest ih =>
    cases v with
    | object fields =>
      have hobjects : objectsIn (.object fields :: rest) = .object fields :: objectsIn rest := rfl
      rw [hobjects, List.exists_mem_cons_iff] at h
      unfold testTable
      cases hkey : ((Json.object fields).field "tcId").isKey with
      | false => rw [identifier_of_not_isKey hkey]; rfl
      | true =>
        rw [identifier_of_isKey hkey]
        exact ih (h.resolve_left (by simp [hkey]))
    | _ => exact ih h

/-- Why a group cannot be indexed. -/
inductive GroupFault (side : Side) (g : Json) : Fault → Prop
  | listless (h : ¬ HasTests g) : GroupFault side g (.input (.testsNotList side))
  | unkeyed (h : HasTests g) (hkeys : Unkeyed g) : GroupFault side g (.defect .unhashable)

variable {side : Side} {t : Table (Table Json)} {rest : List Json}

/-- A group is indexed, or there is a reason why not. -/
theorem indexable_or_fault (side : Side) (g : Json) :
    Indexable [g] ∨ ∃ f, GroupFault side g f := by
  by_cases htests : HasTests g
  · by_cases hkeys : Unkeyed g
    · exact .inr ⟨_, .unkeyed htests hkeys⟩
    · unfold Unkeyed at hkeys
      rw [not_or, Bool.not_eq_false] at hkeys
      exact .inl (indexable_singleton.2 ⟨htests, hkeys.1, by simpa using hkeys.2⟩)
  · exact .inr ⟨_, .listless htests⟩

theorem groupTable_of_fault (h : GroupFault side g f) :
    groupTable side t (g :: rest) = .error f := by
  cases h with
  | listless h =>
    have hitems : (g.field "tests").items? = none := by
      cases hfield : g.field "tests" with
      | array tests => exact absurd ⟨tests, hfield⟩ h
      | _ => rfl
    rw [groupTable, hitems]
  | unkeyed h hkeys =>
    obtain ⟨tests, htests⟩ := h
    unfold Unkeyed at hkeys
    rw [testsOf_of_list htests] at hkeys
    rw [groupTable, htests]
    show (testTable [] tests >>= fun tests => _) = _
    -- the identifiers of the tests are looked at before that of the group
    by_cases hcases : ∃ v ∈ objectsIn tests, (v.field "tcId").isKey = false
    · rw [testTable_of_unkeyed hcases]
      rfl
    · have hall : ∀ v ∈ objectsIn tests, (v.field "tcId").isKey = true := by
        simpa using hcases
      rw [(testTable_eq_ok_iff (t := [])).2 ⟨hall, rfl⟩,
        identifier_of_not_isKey (hkeys.resolve_right hcases)]
      rfl

/-- Groups are indexed up to the first one that cannot be. -/
theorem groupTable_eq_error_iff : groupTable side t groups = .error f ↔
    ∃ before g after, groups = before ++ g :: after ∧ Indexable before ∧
      GroupFault side g f := by
  constructor
  · intro h
    induction groups generalizing t with
    | nil => cases h
    | cons g rest ih =>
      rcases indexable_or_fault side g with hg | ⟨f', hf⟩
      · rw [groupTable_of_indexable hg] at h
        obtain ⟨before, g', after, rfl, hbefore, hfault⟩ := ih h
        exact ⟨g :: before, g', after, rfl, indexable_cons.2 ⟨hg, hbefore⟩, hfault⟩
      · rw [groupTable_of_fault hf] at h
        cases h
        exact ⟨[], g, rest, rfl, indexable_nil, hf⟩
  · rintro ⟨before, g, after, rfl, hbefore, hfault⟩
    induction before generalizing t with
    | nil => exact groupTable_of_fault hfault
    | cons b before ih =>
      obtain ⟨hb, hbefore⟩ := indexable_cons.1 hbefore
      rw [List.cons_append, groupTable_of_indexable hb]
      exact ih hbefore

/-! ## Counting rounds -/

/-- There are rounds to compare with something that is not null and has no length. -/
structure Uncountable (got expected : Json) : Prop where
  rounds : ∃ rs, got.field "resultsArray" = .array rs
  notNull : expected.field "resultsArray" ≠ .null
  noParts : parts? (expected.field "resultsArray") = none

theorem compareRounds_eq_error_iff : compareRounds got expected = .error f ↔
    (∃ rs, got = .array rs) ∧ parts? expected = none ∧ f = .defect .uncountable := by
  unfold compareRounds
  cases got with
  | array rs =>
    cases parts? expected with
    | none => simp [Json.items?, eq_comm]
    | some es =>
      simp only [Json.items?]
      split <;> simp
  | _ => simp [Json.items?]

theorem compareTest_eq_error_iff : compareTest got expected = .error f ↔
    Uncountable got expected ∧ f = .defect .uncountable := by
  have hexpected : compareTest got expected = .error f ↔ expected.field "resultsArray" ≠ .null ∧
      compareRounds (got.field "resultsArray") (expected.field "resultsArray") = .error f := by
    unfold compareTest
    cases expected.field "resultsArray" <;> simp
  rw [hexpected, compareRounds_eq_error_iff]
  constructor
  · rintro ⟨hnull, hrounds, hparts, rfl⟩
    exact ⟨⟨hrounds, hnull, hparts⟩, rfl⟩
  · rintro ⟨⟨hrounds, hnull, hparts⟩, rfl⟩
    exact ⟨hnull, hrounds, hparts, rfl⟩

variable {table : Table (Table Json)} {e : Entry}

theorem compareEntry_eq_error_iff : compareEntry table e = .error f ↔
    (∃ actual, table.lookup e = some actual ∧ Uncountable actual e.test) ∧
      f = .defect .uncountable := by
  cases hlookup : table.lookup e with
  | none =>
    rw [compareEntry_of_absent hlookup]
    exact iff_of_false nofun fun h => nomatch h.1
  | some actual =>
    have hcompare : compareEntry table e = .error f ↔ compareTest actual e.test = .error f := by
      rw [compareEntry_of_lookup hlookup]
      cases compareTest actual e.test with
      | error f' => constructor <;> (rintro ⟨⟩; rfl)
      | ok m => exact iff_of_false nofun nofun
    rw [hcompare, compareTest_eq_error_iff]
    simp

theorem exists_of_compareGroup_eq_error {tgId : Json} {tests : Table Json}
    (h : compareGroup tgId ((table.find? tgId).getD []) tests = .error f) :
    ∃ e ∈ tests.map fun t => (⟨tgId, t.1, t.2⟩ : Entry), compareEntry table e = .error f := by
  induction tests with
  | nil => cases h
  | cons p rest ih =>
    unfold compareGroup at h
    rw [List.map_cons, List.exists_mem_cons_iff]
    rcases cases_of_bind_eq_error h with hfirst | ⟨c, -, h⟩
    · exact .inl hfirst
    · rcases cases_of_bind_eq_error h with hrest | ⟨cs, -, h⟩
      · exact .inr (ih hrest)
      · cases h

theorem exists_of_compareGroups_eq_error (h : compareGroups table t = .error f) :
    ∃ e ∈ t.entries, compareEntry table e = .error f := by
  induction t with
  | nil => cases h
  | cons p rest ih =>
    unfold compareGroups at h
    unfold Table.entries
    rw [List.flatMap_cons]
    simp only [List.mem_append, or_and_right, exists_or]
    rcases cases_of_bind_eq_error h with hfirst | ⟨cs, -, h⟩
    · exact .inl (exists_of_compareGroup_eq_error hfirst)
    · rcases cases_of_bind_eq_error h with hrest | ⟨more, -, h⟩
      · exact .inr (ih hrest)
      · cases h

/-- Groups are compared unless rounds cannot be counted, wherever they stand. -/
theorem compareGroups_eq_error_iff : compareGroups table t = .error f ↔
    (∃ e ∈ t.entries, ∃ actual, table.lookup e = some actual ∧ Uncountable actual e.test) ∧
      f = .defect .uncountable := by
  constructor
  · intro h
    obtain ⟨e, he, hentry⟩ := exists_of_compareGroups_eq_error h
    obtain ⟨hcount, rfl⟩ := compareEntry_eq_error_iff.1 hentry
    exact ⟨⟨e, he, hcount⟩, rfl⟩
  · rintro ⟨⟨e, he, hcount⟩, rfl⟩
    have hentry := (compareEntry_eq_error_iff (f := .defect .uncountable)).2 ⟨hcount, rfl⟩
    cases hgroups : compareGroups table t with
    | error f' =>
      -- an earlier entry may be the one that fails, but all of them fail in the same way
      obtain ⟨e', -, hentry'⟩ := exists_of_compareGroups_eq_error hgroups
      rw [(compareEntry_eq_error_iff.1 hentry').2]
    | ok cases =>
      obtain ⟨c, -, hc⟩ := exists_right_of_forall₂ (compareGroups_eq_ok_iff.1 hgroups) he
      rw [hentry] at hc
      cases hc

/-! ## Documents -/

/-- Why a document is refused. -/
inductive Refuses (d : Document) : InputFault → Prop
  | unread {why : InputFault} (h : d.load = .error (.input why)) : Refuses d why
  | unopened {why : InputFault} {v : Json} (hload : d.load = .ok v)
      (h : Envelope.unwrap v = .error (.input why)) : Refuses d why
  | notObject {v body : Json} {version : Option Text} (hload : d.load = .ok v)
      (hunwrap : Envelope.unwrap v = .ok (body, version)) (h : body.fields? = none) :
      Refuses d .expectedNotObject
  | groupsNotList {v body : Json} {version : Option Text} (hload : d.load = .ok v)
      (hunwrap : Envelope.unwrap v = .ok (body, version)) (hbody : body.fields?.isSome = true)
      (h : ∀ groups, body.field "testGroups" ≠ .array groups) :
      Refuses d (.groupsNotList .expected)
  | testsNotList {before after : List Json} {g : Json} (hd : Opens d (before ++ g :: after))
      (hbefore : Indexable before) (h : ¬ HasTests g) : Refuses d (.testsNotList .expected)

/-- How a document trips a comparison up. -/
inductive Trips (gotGroups : List Json) (d : Document) : Defect → Prop
  | unkeyed {before after : List Json} {g : Json} (hd : Opens d (before ++ g :: after))
      (hbefore : Indexable before) (h : HasTests g) (hkeys : Unkeyed g) :
      Trips gotGroups d .unhashable
  | uncountable {groups : List Json} {a e : Entry} (hd : Opens d groups)
      (hgroups : Indexable groups) (ha : Stands gotGroups a) (he : Stands groups e)
      (hsame : a.isAs e = true) (h : Uncountable a.test e.test) : Trips gotGroups d .uncountable

variable {v body : Json} {version : Option Text}

theorem compareResponses_of_unwrap (hload : d.load = .ok v)
    (hunwrap : Envelope.unwrap v = .ok (body, version)) (hbody : body.fields?.isSome = true) :
    compareResponses got d = (do
      let expected ← index .expected (body.field "testGroups")
      let got ← index .response got
      return { cases := ← compareGroups got expected }) := by
  have hnone : body.fields?.isNone = false := by
    rw [← Option.not_isSome, hbody]
    rfl
  unfold compareResponses
  simp only [hload, hunwrap, hnone, bind, Except.bind, Bool.false_eq_true, if_false, pure,
    Except.pure]

/-- Comparing with a document that has a list of groups. -/
theorem compareResponses_of_opens (hgot : Indexable gotGroups) (hd : Opens d groups) :
    compareResponses (.array gotGroups) d = (do
      let expected ← groupTable .expected [] groups
      return { cases := ← compareGroups (tableOf gotGroups) expected }) := by
  obtain ⟨v, body, version, hload, hunwrap, hgroups⟩ := hd
  have hbody : body.fields?.isSome = true := by
    cases body with
    | object fields => rfl
    | _ => cases hgroups
  have hindex : index .response (.array gotGroups) = .ok (tableOf gotGroups) :=
    index_eq_ok_iff.2 ⟨gotGroups, rfl, hgot, rfl⟩
  rw [compareResponses_of_unwrap hload hunwrap hbody, hgroups, hindex]
  rfl

theorem compareResponses_of_refuses {why : InputFault} (hgot : Indexable gotGroups)
    (h : Refuses d why) : compareResponses (.array gotGroups) d = .error (.input why) := by
  cases h with
  | unread h => rw [compareResponses, h]; rfl
  | unopened hload h => simp only [compareResponses, hload, h, bind, Except.bind]
  | notObject hload hunwrap h =>
    simp only [compareResponses, hload, hunwrap, h, bind, Except.bind, Option.isNone_none, if_true]
    rfl
  | @groupsNotList v body version hload hunwrap hbody h =>
    have hindex : index .expected (body.field "testGroups") =
        .error (.input (.groupsNotList .expected)) := by
      unfold index
      split
      · next groups hgroups => exact absurd hgroups (h groups)
      · rfl
    rw [compareResponses_of_unwrap hload hunwrap hbody, hindex]
    rfl
  | testsNotList hd hbefore h =>
    rw [compareResponses_of_opens hgot hd,
      groupTable_eq_error_iff.2 ⟨_, _, _, rfl, hbefore, .listless h⟩]
    rfl

/-- Rounds cannot be counted in the tables of documents if that is so in the documents. -/
theorem exists_uncountable_iff (hgot : Indexable gotGroups) (hgroups : Indexable groups) :
    (∃ e ∈ (tableOf groups).entries, ∃ actual, (tableOf gotGroups).lookup e = some actual ∧
      Uncountable actual e.test) ↔
    ∃ a e, Stands gotGroups a ∧ Stands groups e ∧ a.isAs e = true ∧ Uncountable a.test e.test := by
  constructor
  · rintro ⟨e', he', actual, hlookup, hcount⟩
    obtain ⟨a, ha, hsame, rfl⟩ := hgot.exists_stands hlookup
    obtain ⟨e, he, hsame', htest⟩ := hgroups.exists_stands (hgroups.lookup_of_mem he')
    refine ⟨a, e, ha, he, ?_, by rw [htest]; exact hcount⟩
    exact Entry.isAs_trans (ha.isKey hgot) hsame (Entry.isAs_symm (he.isKey hgroups) hsame')
  · rintro ⟨a, e, ha, he, hsame, hcount⟩
    obtain ⟨e', hfilter, htest, hsame'⟩ := he.filter_entries hgroups
    have he' : e' ∈ (tableOf groups).entries := by
      refine List.mem_of_mem_filter (p := fun a => a.isAs e) ?_
      rw [hfilter]
      exact List.mem_singleton_self e'
    obtain ⟨-, -, -, -, hkeys⟩ := hgroups.exists_of_mem he'
    refine ⟨e', he', a.test, ha.lookup_eq hgot ?_, by rw [htest]; exact hcount⟩
    exact Entry.isAs_trans (ha.isKey hgot) hsame (Entry.isAs_symm hkeys hsame')

theorem compareResponses_of_trips {why : Defect} (hgot : Indexable gotGroups)
    (h : Trips gotGroups d why) :
    compareResponses (.array gotGroups) d = .error (.defect why) := by
  cases h with
  | unkeyed hd hbefore h hkeys =>
    rw [compareResponses_of_opens hgot hd,
      groupTable_eq_error_iff.2 ⟨_, _, _, rfl, hbefore, .unkeyed h hkeys⟩]
    rfl
  | @uncountable groups a e hd hgroups ha he hsame h =>
    have hcount := (exists_uncountable_iff hgot hgroups).2 ⟨a, e, ha, he, hsame, h⟩
    have hcases := compareGroups_eq_error_iff.2 ⟨hcount, rfl⟩
    have htable : groupTable .expected [] groups = .ok (tableOf groups) :=
      groupTable_eq_ok_iff.2 ⟨hgroups, rfl⟩
    simp only [compareResponses_of_opens hgot hd, htable, hcases, bind, Except.bind]

/-- A document without a list of groups is refused. -/
theorem exists_refuses (h : ¬ ∃ groups, Opens d groups) : ∃ why, Refuses d why := by
  cases hload : d.load with
  | error f =>
    obtain ⟨why, rfl⟩ := Document.exists_of_load_eq_error hload
    exact ⟨why, .unread hload⟩
  | ok v =>
    cases hunwrap : Envelope.unwrap v with
    | error f =>
      obtain ⟨why, rfl⟩ := Envelope.exists_of_unwrap_eq_error hunwrap
      exact ⟨why, .unopened hload hunwrap⟩
    | ok p =>
      obtain ⟨body, version⟩ := p
      cases hbody : body.fields? with
      | none => exact ⟨_, .notObject hload hunwrap hbody⟩
      | some fields =>
        refine ⟨_, .groupsNotList hload hunwrap (by rw [hbody]; rfl) fun groups hgroups => ?_⟩
        exact h ⟨groups, v, body, version, hload, hunwrap, hgroups⟩

/-- Whatever stops a comparison is a reason to refuse the document or something in it that trips the
comparison up. -/
theorem refuses_or_trips (hgot : Indexable gotGroups)
    (h : compareResponses (.array gotGroups) d = .error f) :
    (∃ why, Refuses d why ∧ f = .input why) ∨ ∃ why, Trips gotGroups d why ∧ f = .defect why := by
  by_cases hopens : ∃ groups, Opens d groups
  · obtain ⟨groups, hd⟩ := hopens
    rw [compareResponses_of_opens hgot hd] at h
    rcases cases_of_bind_eq_error h with htable | ⟨table, htable, h⟩
    · obtain ⟨before, g, after, rfl, hbefore, hfault⟩ := groupTable_eq_error_iff.1 htable
      cases hfault with
      | listless hlist => exact .inl ⟨_, .testsNotList hd hbefore hlist, rfl⟩
      | unkeyed hlist hkeys => exact .inr ⟨_, .unkeyed hd hbefore hlist hkeys, rfl⟩
    · obtain ⟨hgroups, rfl⟩ := groupTable_eq_ok_iff.1 htable
      rcases cases_of_bind_eq_error h with hcases | ⟨cases, -, h⟩
      · obtain ⟨hcount, rfl⟩ := compareGroups_eq_error_iff.1 hcases
        obtain ⟨a, e, ha, he, hsame, hcount⟩ := (exists_uncountable_iff hgot hgroups).1 hcount
        exact .inr ⟨_, .uncountable hd hgroups ha he hsame hcount, rfl⟩
      · cases h
  · obtain ⟨why, hrefuses⟩ := exists_refuses hopens
    rw [compareResponses_of_refuses hgot hrefuses] at h
    cases h
    exact .inl ⟨why, hrefuses, rfl⟩

/-! ## Top theorem -/

/-- Whatever the answers and the document: the comparison is refused as bad input for the reasons in
`Refuses` and no others, fails in an unforeseen way for those in `Trips` and no others, and gives a
report if there is neither. -/
theorem compareResponses_outcomes (responses : List GroupResponse) (d : Document) :
    let gotGroups := CommandLine.groupsJson responses
    (∀ why, compareResponses (.array gotGroups) d = .error (.input why) ↔ Refuses d why) ∧
    (∀ why, compareResponses (.array gotGroups) d = .error (.defect why) ↔
      Trips gotGroups d why) ∧
    ((∃ report, compareResponses (.array gotGroups) d = .ok report) ↔
      (∀ why, ¬ Refuses d why) ∧ ∀ why, ¬ Trips gotGroups d why) := by
  intro gotGroups
  have hgot : Indexable gotGroups := (shows_toJson responses).indexable
  refine ⟨fun why => ⟨fun h => ?_, compareResponses_of_refuses hgot⟩,
    fun why => ⟨fun h => ?_, compareResponses_of_trips hgot⟩, ?_, ?_⟩
  · rcases refuses_or_trips hgot h with ⟨why', hrefuses, hwhy⟩ | ⟨why', -, hwhy⟩
    · cases hwhy
      exact hrefuses
    · cases hwhy
  · rcases refuses_or_trips hgot h with ⟨why', -, hwhy⟩ | ⟨why', htrips, hwhy⟩
    · cases hwhy
    · cases hwhy
      exact htrips
  · rintro ⟨report, hreport⟩
    refine ⟨fun why h => ?_, fun why h => ?_⟩
    · rw [compareResponses_of_refuses hgot h] at hreport
      cases hreport
    · rw [compareResponses_of_trips hgot h] at hreport
      cases hreport
  · rintro ⟨hrefuses, htrips⟩
    cases h : compareResponses (.array gotGroups) d with
    | ok report => exact ⟨report, rfl⟩
    | error f =>
      rcases refuses_or_trips hgot h with ⟨why, hwhy, -⟩ | ⟨why, hwhy, -⟩
      · exact absurd hwhy (hrefuses why)
      · exact absurd hwhy (htrips why)

/-- A document with a group that has a list for its identifier. -/
def listIdDocument : Document :=
  .value (.object [("testGroups", .array [.object [("tgId", .array []), ("tests", .array [])]])])

/-- Compared with it, even no answers at all fail in an unforeseen way. -/
theorem listIdDocument_trips : compareResponses (.array (CommandLine.groupsJson []))
    listIdDocument = .error (.defect .unhashable) := rfl

end XofConformance.Comparison
