import XofConformance.Junit
import XofConformance.Proofs.Comparison.Entries
import XofConformance.Proofs.Json.RoundTrip
import XofConformance.Proofs.Xml.Writing

/-!
# Suites of compared tests

The document of a suite says what the report of a comparison says: its root declares how many tests
were compared and how many of them failed, and has one element for every case of the report, in its
order, with the identifier as its name, and with a failure exactly if the case failed.

There always is such a document. Identifiers stand in it as they are, and those that are texts may
be any: it is well-formed exactly if they, and the name of the suite, are of characters.

    ReadsDocument d root → Describes suite r root                             (report_describes)
    IsLegal suite r ↔ the suite and the texts among the identifiers are of characters
                                                                                  (isLegal_iff)
-/

namespace XofConformance.Junit

open Comparison Xml

/-! ## What a document says -/

/-- What the element of a case says: its identifier, and how it failed if it did. -/
structure DescribesCase (c : CaseReport) (n : Node) : Prop where
  isCase : n.name? = some (Text.ofString "testcase")
  named : n.attribute? "name" = some c.id
  passed : c.failure = none → n.content = []
  failed : ∀ f, c.failure = some f → ∃ child, n.content = [child] ∧
    child.name? = some (Text.ofString "failure") ∧
    child.attribute? "message" = some f.mismatch.message

/-- What the root of a document says: the name of the suite, the counts, and each case in turn. -/
structure Describes (suite : Text) (r : Report) (root : Node) : Prop where
  isSuite : root.name? = some (Text.ofString "testsuite")
  named : root.attribute? "name" = some suite
  tests : root.attribute? "tests" = some (Text.ofNat r.ran)
  failures : root.attribute? "failures" = some (Text.ofNat r.failed)
  cases : List.Forall₂ DescribesCase r.cases root.content

/-- The name of the suite and the identifiers hold nothing but characters. -/
structure IsLegal (suite : Text) (r : Report) : Prop where
  suite : ∀ c ∈ suite, IsChar c
  ids : ∀ a ∈ r.cases, ∀ c ∈ a.id, IsChar c

/-! ## Elements of a report -/

variable {suite : Text} {r : Report} {a : CaseReport} {f : Failure}

/-- The attributes of a failure. -/
def failureAttributes (f : Failure) : List (Text × Text) :=
  [("type", "mismatch"), ("message", f.mismatch.message)]

/-- The attributes of a case. -/
def caseAttributes (suite : Text) (a : CaseReport) : List (Text × Text) :=
  [("classname", Text.concat [suite, ".", Text.before 0x2F a.id]), ("name", a.id)]

/-- The attributes of a suite. -/
def suiteAttributes (suite : Text) (r : Report) : List (Text × Text) :=
  [("name", suite), ("tests", Text.ofNat r.ran), ("failures", Text.ofNat r.failed), ("errors", "0")]

/-- The element of a failure. -/
def failureElement (a : CaseReport) (f : Failure) : Element :=
  .mk "failure" (written (failureAttributes f)) (details a.toJson) []

/-- The element of a case of a report. -/
def reportedCase (suite : Text) (a : CaseReport) : Element :=
  .mk "testcase" (written (caseAttributes suite a)) [] (a.failure.map (failureElement a)).toList

/-- The element of a report. -/
def reportedSuite (suite : Text) (r : Report) : Element :=
  .mk "testsuite" (written (suiteAttributes suite r)) [] (r.cases.map (reportedCase suite))

/-- What the element of a failure is read as. -/
def failureNode (a : CaseReport) (f : Failure) : Node :=
  .element "failure" (failureAttributes f) ((details a.toJson).map .char)

/-- What the element of a case is read as. -/
def caseNode (suite : Text) (a : CaseReport) : Node :=
  .element "testcase" (caseAttributes suite a) (a.failure.map (failureNode a)).toList

/-- What the element of a report is read as. -/
def suiteNode (suite : Text) (r : Report) : Node :=
  .element "testsuite" (suiteAttributes suite r) (r.cases.map (caseNode suite))

theorem message_ne_nil (m : Mismatch) : m.message ≠ [] := by
  cases m <;> simp [Mismatch.message, Text.concat, Text.ofString]

theorem failureMessage_text {t : Text} (ht : t ≠ []) :
    failureMessage (.text t) = .ofText "message" t := by
  cases t with
  | nil => exact absurd rfl ht
  | cons c t => rfl

theorem compared_toJson (cases : List CaseReport) :
    compared (cases.map CaseReport.toJson) =
      .ok (cases.map fun a => (a.toJson, a.failure.isSome)) := by
  induction cases with
  | nil => rfl
  | cons a cases ih =>
    have hstatus : ∃ s, status a.toJson = .ok s ∧ isCompared s = true ∧
        isFailed s = a.failure.isSome := by
      unfold CaseReport.toJson
      cases a.failure with
      | none => exact ⟨.text "passed", rfl, rfl, rfl⟩
      | some f => exact ⟨.text "failed", rfl, rfl, rfl⟩
    obtain ⟨s, hs, hcompared, hfailed⟩ := hstatus
    rw [List.map_cons, compared, hs, ih]
    simp only [bind, Except.bind, hcompared, hfailed, if_true]
    rfl

theorem field_error_toJson (hf : a.failure = some f) :
    a.toJson.field "error" = .text f.mismatch.message := by
  rw [CaseReport.toJson, hf]
  rfl

theorem caseElement_toJson : caseElement suite a.toJson a.failure.isSome =
    .ok (reportedCase suite a) := by
  have hname : caseName a.toJson = .ok a.id := by
    unfold CaseReport.toJson
    cases a.failure <;> rfl
  rw [caseElement, hname]
  cases hf : a.failure with
  | none =>
    rw [reportedCase, hf]
    rfl
  | some f =>
    rw [reportedCase, hf, field_error_toJson hf, failureMessage_text (message_ne_nil _)]
    rfl

theorem caseElements_toJson (cases : List CaseReport) :
    caseElements suite (cases.map fun a => (a.toJson, a.failure.isSome)) =
      .ok (cases.map (reportedCase suite)) := by
  induction cases with
  | nil => rfl
  | cons a cases ih =>
    rw [List.map_cons, caseElements, caseElement_toJson, ih]
    rfl

theorem suiteElement_toJson :
    suiteElement suite (r.cases.map fun a => (a.toJson, a.failure.isSome))
      (r.cases.map (reportedCase suite)) = reportedSuite suite r := by
  have hfailed : ((r.cases.map fun a => (a.toJson, a.failure.isSome)).filter (·.2)).length =
      r.failed := by
    rw [List.filter_map, List.length_map]
    rfl
  rw [suiteElement, hfailed, List.length_map]
  rfl

theorem isWritable_text (t : Text) : isWritable (.text t) = true := Bool.or_true _

/-- The cases of a report can always be written. -/
theorem report_toJson (suite : Text) (r : Report) :
    report suite (r.cases.map CaseReport.toJson) = .ok (document (reportedSuite suite r)) := by
  have hcase : ∀ a : CaseReport,
      (a.failure.isSome && !isWritable (a.toJson.field "error")) = false := by
    intro a
    cases hf : a.failure with
    | none => rfl
    | some f =>
      rw [field_error_toJson hf, isWritable_text]
      rfl
  have hwritable : ((r.cases.map fun a => (a.toJson, a.failure.isSome)).any fun c =>
      c.2 && !isWritable (c.1.field "error")) = false := by
    rw [List.any_map, List.any_eq_false]
    exact fun a _ => Bool.eq_false_iff.1 (hcase a)
  rw [report, compared_toJson]
  simp only [bind, Except.bind, caseElements_toJson, hwritable, suiteElement_toJson]
  rfl

/-! ## What the elements are read as -/

theorem name_mem_written {suite : Text} {a : CaseReport} :
    Attribute.ofText "name" a.id ∈ written (caseAttributes suite a) :=
  List.mem_cons_of_mem _ List.mem_cons_self

/-- Whatever the values of a case are, they are written in plain code points. -/
theorem isPlain_details (c : Json) : ∀ x ∈ details c, Text.IsPlain x := by
  have hspaced : Json.spaced.Keeps Text.IsPlain :=
    ⟨by decide, by decide, fun _ => nofun⟩
  exact Json.forall_mem_writeAt (fun _ h => h) hspaced 0 _

theorem spells_failure (hmessage : ∀ c ∈ f.mismatch.message, IsChar c) :
    Spells (writeElement (failureElement a f)) (failureNode a f) := by
  have hattributes : AreAttributes (failureAttributes f) := by
    refine areAttributes_of_keys ["type", "message"] rfl (by decide) (by decide) ?_
    simp only [failureAttributes, List.forall_mem_cons]
    exact ⟨by decide, hmessage, nofun⟩
  have hname : isName "failure" = true := rfl
  have htext : ∀ c ∈ details a.toJson, IsChar c ∧ c ≠ 0x0D := by
    intro c hc
    have hplain := isPlain_details _ c hc
    refine ⟨isChar_of_isPlain hplain, ?_⟩
    rintro rfl
    exact absurd hplain (by decide)
  exact spells_leaf hname hattributes htext

theorem spells_case (hsuite : ∀ c ∈ suite, IsChar c) (hid : ∀ c ∈ a.id, IsChar c)
    (hmessage : ∀ f, a.failure = some f → ∀ c ∈ f.mismatch.message, IsChar c) :
    Spells (writeElement (reportedCase suite a)) (caseNode suite a) := by
  have hgroup : ∀ c ∈ Text.before 0x2F a.id, IsChar c := fun c hc =>
    hid c ((List.takeWhile_sublist _).subset hc)
  have hclass : ∀ c ∈ Text.concat [suite, ".", Text.before 0x2F a.id], IsChar c := by
    refine Text.forall_mem_concat ?_
    simp only [List.forall_mem_cons]
    exact ⟨hsuite, by decide, hgroup, nofun⟩
  have hattributes : AreAttributes (caseAttributes suite a) := by
    refine areAttributes_of_keys ["classname", "name"] rfl (by decide) (by decide) ?_
    simp only [caseAttributes, List.forall_mem_cons]
    exact ⟨hclass, hid, nofun⟩
  have hname : isName "testcase" = true := rfl
  refine spells_parent hname hattributes ?_
  cases hf : a.failure with
  | none => exact .nil
  | some f => exact .cons (spells_failure (hmessage f hf)) .nil

theorem spells_suite (hlegal : IsLegal suite r)
    (hmessages : ∀ a ∈ r.cases, ∀ f, a.failure = some f → ∀ c ∈ f.mismatch.message, IsChar c) :
    Spells (writeElement (reportedSuite suite r)) (suiteNode suite r) := by
  have hcount : ∀ n, ∀ c ∈ Text.ofNat n, IsChar c := fun n c hc =>
    isChar_of_isPlain (Text.isPlain_of_mem_ofNat hc)
  have hattributes : AreAttributes (suiteAttributes suite r) := by
    refine areAttributes_of_keys ["name", "tests", "failures", "errors"] rfl (by decide)
      (by decide) ?_
    simp only [suiteAttributes, List.forall_mem_cons]
    exact ⟨hlegal.suite, hcount _, hcount _, by decide, nofun⟩
  have hname : isName "testsuite" = true := rfl
  refine spells_parent hname hattributes ?_
  rw [List.map_map, List.forall₂_map_left_iff, List.forall₂_map_right_iff, List.forall₂_same]
  exact fun a ha => spells_case hlegal.suite (hlegal.ids a ha) (hmessages a ha)

theorem describesCase_caseNode (suite : Text) (a : CaseReport) :
    DescribesCase a (caseNode suite a) where
  isCase := rfl
  named := rfl
  passed h := by
    rw [caseNode, h]
    rfl
  failed f h := by
    rw [caseNode, h]
    exact ⟨_, rfl, rfl, rfl⟩

theorem describes_suiteNode (suite : Text) (r : Report) :
    Describes suite r (suiteNode suite r) where
  isSuite := rfl
  named := rfl
  tests := rfl
  failures := rfl
  cases := by
    show List.Forall₂ DescribesCase r.cases (r.cases.map (caseNode suite))
    rw [List.forall₂_map_right_iff, List.forall₂_same]
    exact fun a _ => describesCase_caseNode suite a

/-- A document that can be read is of characters, and so are the identifiers in it. -/
theorem isLegal_of_readsDocument {root : Node}
    (h : ReadsDocument (document (reportedSuite suite r)) root) : IsLegal suite r := by
  have hwritten : ∀ c ∈ writeElement (reportedSuite suite r), IsChar c := fun c =>
    isChar_of_readsDocument_document h
  refine ⟨isChar_of_forall_writeElement hwritten List.mem_cons_self, fun a ha => ?_⟩
  have hcase : ∀ c ∈ writeElement (reportedCase suite a), IsChar c := fun c hc =>
    hwritten c (mem_writeElement_of_mem_child (List.mem_map_of_mem ha) hc)
  exact isChar_of_forall_writeElement hcase name_mem_written

/-! ## Words for a failure -/

variable {got expected : Json} {key : Text} {m : Mismatch} {d : Document}

theorem isPlain_message (hkey : ∀ key, m = .field key → ∀ c ∈ key, Text.IsPlain c) :
    ∀ c ∈ m.message, Text.IsPlain c := by
  have hcount : ∀ n, ∀ c ∈ Text.ofNat n, Text.IsPlain c := fun n c => Text.isPlain_of_mem_ofNat
  cases m with
  | absent => decide
  | noRounds => decide
  | roundCount got expected =>
    refine Text.forall_mem_concat ?_
    simp only [List.forall_mem_cons]
    exact ⟨by decide, hcount _, by decide, hcount _, nofun⟩
  | round index =>
    refine Text.forall_mem_concat ?_
    simp only [List.forall_mem_cons]
    exact ⟨by decide, hcount _, by decide, nofun⟩
  | field key => exact List.forall_mem_append.2 ⟨hkey key rfl, by decide⟩

/-- Tests are told apart under two keys only. -/
theorem mem_keys_of_compareTest (h : compareTest got expected = .ok (some (.field key))) :
    key ∈ [digestKey, Text.ofString "outLen"] := by
  unfold compareTest at h
  split at h
  · obtain ⟨k, hk, heq⟩ := Option.map_eq_some_iff.1 (Except.ok.inj h)
    cases heq
    exact List.mem_of_find?_eq_some hk
  unfold compareRounds at h
  split at h
  · cases h
  split at h
  · cases h
  split at h
  · cases h
  · obtain ⟨_, _, heq⟩ := Option.map_eq_some_iff.1 (Except.ok.inj h)
    cases heq

/-- A report tells failures in plain words. -/
theorem isPlain_message_of_compareResponses (h : compareResponses got d = .ok r) (ha : a ∈ r.cases)
    (hf : a.failure = some f) : ∀ c ∈ f.mismatch.message, Text.IsPlain c := by
  obtain ⟨gotGroups, groups, -, -, -, -, hcases⟩ := compareResponses_eq_ok_iff.1 h
  obtain ⟨e, -, he⟩ := exists_left_of_forall₂ hcases ha
  refine isPlain_message fun key hkey => ?_
  have hkeys : ∀ key ∈ [digestKey, Text.ofString "outLen"], ∀ c ∈ key, Text.IsPlain c := by decide
  cases hlookup : (tableOf gotGroups).lookup e with
  | none =>
    rw [compareEntry_of_absent hlookup] at he
    cases he
    cases hf
    cases hkey
  | some actual =>
    rw [compareEntry_of_lookup hlookup] at he
    obtain ⟨m, hm, he⟩ := exists_of_bind_eq_ok he
    cases he
    obtain ⟨m', rfl, rfl⟩ := Option.map_eq_some_iff.1 hf
    obtain rfl : m' = .field key := hkey
    exact hkeys key (mem_keys_of_compareTest hm)

/-! ## Identifiers -/

/-- An identifier that is no text is shown in plain code points. -/
theorem isChar_shown_iff {v : Json} (hv : v.isKey = true) :
    (∀ c ∈ v.shown, IsChar c) ↔ ∀ t, v = .text t → ∀ c ∈ t, IsChar c := by
  have hwords : ∀ w ∈ (["None", "True", "False"] : List Text), ∀ c ∈ w, IsChar c := by decide
  cases v with
  | null => exact iff_of_true (hwords _ (by decide)) nofun
  | bool b =>
    cases b with
    | true => exact iff_of_true (hwords _ (by decide)) nofun
    | false => exact iff_of_true (hwords _ (by decide)) nofun
  | number n =>
    exact iff_of_true (fun c hc => isChar_of_isPlain (Number.isPlain_of_mem_text hc)) nofun
  | text t =>
    refine ⟨fun h t' ht' => ?_, fun h => h t rfl⟩
    cases ht'
    exact h
  | array | object => cases hv

theorem isChar_id_iff (hkeys : a.tgId.isKey = true ∧ a.tcId.isKey = true) :
    (∀ c ∈ a.id, IsChar c) ↔ ∀ t, a.tgId = .text t ∨ a.tcId = .text t → ∀ c ∈ t, IsChar c := by
  have hparts : a.id = "tg" ++ (a.tgId.shown ++ ("/tc" ++ a.tcId.shown)) := by
    simp [CaseReport.id, Text.concat]
  have htg : ∀ c ∈ Text.ofString "tg", IsChar c := by decide
  have htc : ∀ c ∈ Text.ofString "/tc", IsChar c := by decide
  simp only [hparts, List.forall_mem_append, isChar_shown_iff hkeys.1, isChar_shown_iff hkeys.2,
    iff_true_intro htg, iff_true_intro htc, true_and, or_imp, forall_and]

/-- What decides is the suite, and the identifiers that are texts. -/
theorem isLegal_iff (h : compareResponses got d = .ok r) :
    IsLegal suite r ↔ (∀ c ∈ suite, IsChar c) ∧
      ∀ a ∈ r.cases, ∀ t, a.tgId = .text t ∨ a.tcId = .text t → ∀ c ∈ t, IsChar c := by
  obtain ⟨gotGroups, groups, -, -, -, hgroups, hcases⟩ := compareResponses_eq_ok_iff.1 h
  have hkeys : ∀ a ∈ r.cases, a.tgId.isKey = true ∧ a.tcId.isKey = true := by
    intro a ha
    obtain ⟨e, he, hcompare⟩ := exists_left_of_forall₂ hcases ha
    obtain ⟨-, -, -, -, htgId, htcId⟩ := hgroups.exists_of_mem he
    obtain ⟨htg, htc, -⟩ := about_of_compareEntry hcompare
    exact ⟨htg ▸ htgId, htc ▸ htcId⟩
  constructor
  · exact fun hlegal => ⟨hlegal.suite, fun a ha => (isChar_id_iff (hkeys a ha)).1 (hlegal.ids a ha)⟩
  · exact fun ⟨hsuite, hids⟩ => ⟨hsuite, fun a ha => (isChar_id_iff (hkeys a ha)).2 (hids a ha)⟩

/-! ## Top theorem -/

/-- **Documents of reports.** The cases of a report can always be written as a document; it is a
well-formed one exactly if the suite and the identifiers that are texts are of characters, and then
its root says what the report says: the counts, and each case in turn, with a failure exactly if it
failed. -/
theorem report_describes (suite : Text) (got : Json) (expected : Document) (r : Report)
    (h : compareResponses got expected = .ok r) :
    ∃ d, report suite (r.cases.map CaseReport.toJson) = .ok d ∧
      ((∃ root, ReadsDocument d root) ↔ (∀ c ∈ suite, IsChar c) ∧
        ∀ a ∈ r.cases, ∀ t, a.tgId = .text t ∨ a.tcId = .text t → ∀ c ∈ t, IsChar c) ∧
      ∀ root, ReadsDocument d root → Describes suite r root := by
  have hread : IsLegal suite r →
      ReadsDocument (document (reportedSuite suite r)) (suiteNode suite r) := by
    intro hlegal
    refine (spells_suite hlegal fun a ha f hf c hc => ?_).readsDocument_document
    exact isChar_of_isPlain (isPlain_message_of_compareResponses h ha hf c hc)
  rw [← isLegal_iff h]
  refine ⟨_, report_toJson suite r, ⟨?_, fun hlegal => ⟨_, hread hlegal⟩⟩, fun root hroot => ?_⟩
  · rintro ⟨root, hroot⟩
    exact isLegal_of_readsDocument hroot
  · rw [hroot.unique (hread (isLegal_of_readsDocument hroot))]
    exact describes_suiteNode suite r

/-- Two expected tests, with identifiers of marks, quotes and line breaks. -/
def markedDocument : Document :=
  .value (.object [("testGroups", .array [.object [("tgId", .text "<a> & \"b\""), ("tests", .array [
    .object [("tcId", .text "one\n")], .object [("tcId", .int 2)]])]])])

/-- A response that answers the first of them. -/
def markedAnswer : Json :=
  .array [.object [("tgId", .text "<a> & \"b\""), ("tests", .array [
    .object [("tcId", .text "one\n")]])]]

/-- Their comparison: the other one is missing. -/
def markedReport : Report where
  cases := [
    { tgId := .text "<a> & \"b\"", tcId := .text "one\n", failure := none },
    { tgId := .text "<a> & \"b\"", tcId := .int 2, failure := some {
        mismatch := .absent, expected := .object [("tcId", .int 2)], actual := .null } }]

/-- The document of the comparison is read, and says that one test of the two failed. -/
theorem report_describes_marked : ∃ d root,
    compareResponses markedAnswer markedDocument = .ok markedReport ∧
      report "xof" (markedReport.cases.map CaseReport.toJson) = .ok d ∧ ReadsDocument d root ∧
      Describes "xof" markedReport root ∧ markedReport.ran = 2 ∧ markedReport.failed = 1 := by
  have hcompare : compareResponses markedAnswer markedDocument = .ok markedReport := rfl
  have hids : ∀ a ∈ markedReport.cases, ∀ t, a.tgId = .text t ∨ a.tcId = .text t →
      ∀ c ∈ t, IsChar c := by
    simp only [markedReport, List.forall_mem_cons]
    refine ⟨?_, ?_, nofun⟩
    · rintro t (h | h) <;> cases h <;> decide
    · rintro t (h | h) <;> cases h
      decide
  obtain ⟨d, hreport, hlegal, hdescribes⟩ := report_describes "xof" _ _ _ hcompare
  obtain ⟨root, hroot⟩ := hlegal.2 ⟨by decide, hids⟩
  exact ⟨d, root, hcompare, hreport, hroot, hdescribes root hroot, rfl, rfl⟩

/-- An expected test whose identifier is a control character. -/
def controlDocument : Document :=
  .value (.object [("testGroups", .array [.object [("tgId", .int 1), ("tests", .array [
    .object [("tcId", .text [0x01])]])]])])

/-- The report of the comparison with it is written as a document that cannot be read. -/
theorem controlDocument_unread : ∃ r d, compareResponses (.array []) controlDocument = .ok r ∧
    report "xof" (r.cases.map CaseReport.toJson) = .ok d ∧ ¬ ∃ root, ReadsDocument d root := by
  refine ⟨_, _, rfl, report_toJson _ _, ?_⟩
  rintro ⟨root, hroot⟩
  have hid := (isLegal_of_readsDocument hroot).ids _ List.mem_cons_self
  exact absurd (hid 0x01 (by decide)) (by decide)

end XofConformance.Junit
