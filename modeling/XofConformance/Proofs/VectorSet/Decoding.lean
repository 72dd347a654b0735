import XofConformance.Proofs.VectorSet.Framing
import XofConformance.Proofs.VectorSet.Lengths

/-!
# Decoding vector sets

Which documents hold a vector set, and which one. A document holds one if it opens to an object
whose fields are what they have to be; a field that is there is never null, and an integer is a
number worth one, in whichever form. Then every field of the vector set is the field of the document
or, if the document leaves it out, a default, and groups and tests are in document order. Every
other document is bad input.

    ofDocument d = .error f → f is bad input
    ofDocument d = .ok vs, for some vs, ↔ d opens to a body with body.IsVectorSet
    ofDocument d = .ok vs ↔ that, and vs.ReadFrom body                     (ofDocument_decides)
-/

namespace XofConformance

/-! ## Values -/

/-- The number is worth an integer from zero on. -/
def Number.IsNatural (n : Number) : Prop := ∃ k : Nat, n.IsWorth k

namespace Json

/-- The value is a text. -/
def IsText (v : Json) : Prop := ∃ t, v = .text t

/-- The value is a truth value. -/
def IsTruth (v : Json) : Prop := ∃ b, v = .bool b

/-- The value is an integer from zero on. -/
def IsNatural (v : Json) : Prop := ∃ n, v = .number n ∧ n.IsNatural

/-- The value is an integer that fits into a word. -/
def IsWord (v : Json) : Prop := ∃ n, v = .number n ∧ n.FitsWord

/-- The value is an object. -/
def IsObject (v : Json) : Prop := ∃ fields, v = .object fields

/-- The value is an array of such values. -/
def IsListOf (p : Json → Prop) (v : Json) : Prop := ∃ items, v = .array items ∧ ∀ i ∈ items, p i

/-- The value has the field, and it is such a value. -/
def Requires (v : Json) (key : Text) (p : Json → Prop) : Prop :=
  ∃ w, v.field? key = some w ∧ p w

/-- If the value has the field, then it is such a value. -/
def Allows (v : Json) (key : Text) (p : Json → Prop) : Prop := ∀ w, v.field? key = some w → p w

/-- An object that holds a test case. -/
structure IsTestCase (v : Json) : Prop where
  isObject : v.IsObject
  tcId : v.Requires "tcId" IsNatural
  msg : v.Requires "msg" IsText
  len : v.Requires "len" IsNatural
  functionName : v.Allows "functionName" IsText
  customization : v.Allows "customization" IsText
  hexCustomization : v.Allows "hexCustomization" IsText
  outLen : v.Allows "outLen" IsWord

/-- An object that holds a test group. -/
structure IsTestGroup (v : Json) : Prop where
  isObject : v.IsObject
  tgId : v.Requires "tgId" IsNatural
  testType : v.Requires "testType" IsText
  tests : v.Requires "tests" (IsListOf IsTestCase)
  hexCustomization : v.Allows "hexCustomization" IsTruth
  maxOutLen : v.Allows "maxOutLen" IsWord
  minOutLen : v.Allows "minOutLen" IsWord
  outLenIncrement : v.Allows "outLenIncrement" IsWord

/-- An object that holds a vector set. -/
structure IsVectorSet (v : Json) : Prop where
  isObject : v.IsObject
  testGroups : v.Requires "testGroups" (IsListOf IsTestGroup)
  vsId : v.Allows "vsId" IsNatural
  algorithm : v.Allows "algorithm" IsText
  revision : v.Allows "revision" IsText
  isSample : v.Allows "isSample" IsTruth

end Json

/-! ## Shapes -/

namespace Shape

open Json (IsObject IsListOf)

variable {v : Json}

theorem fits_natural : natural.Fits = Json.IsNatural := by
  funext v
  refine propext (fits_integer_iff.trans ⟨?_, ?_⟩)
  · rintro ⟨n, k, rfl, hk, hlow, -⟩
    obtain ⟨j, rfl⟩ := Int.eq_ofNat_of_zero_le (hlow 0 rfl)
    exact ⟨n, rfl, j, hk⟩
  · rintro ⟨n, rfl, k, hk⟩
    refine ⟨n, k, rfl, hk, fun l hl => ?_, nofun⟩
    obtain rfl := Option.some.inj hl
    omega

theorem fits_word : word.Fits = Json.IsWord := funext fun _ => propext fits_word_iff

theorem fits_anyText : anyText.Fits = Json.IsText := by
  funext v
  unfold anyText Json.IsText
  rw [Fits]
  cases v <;> simp [Kind.accepts, InBounds]

theorem fits_truth : (value .truth none none).Fits = Json.IsTruth := by
  funext v
  unfold Json.IsTruth
  rw [Fits]
  cases v <;> simp [Kind.accepts, InBounds]

theorem fits_list (item : Shape) : (list item).Fits = IsListOf item.Fits := by
  funext v
  rw [Fits, IsListOf]

theorem fitsFields_iff {fields : List (Text × Shape)} {present : List (Text × Json)} :
    FitsFields fields present ↔ ∀ p ∈ fields, (Json.object present).Allows p.1 p.2.Fits := by
  induction fields with
  | nil => simp [FitsFields]
  | cons p rest ih => rw [FitsFields, List.forall_mem_cons, ih]; rfl

/-- What has the shape of a record is an object with the required fields, of which all are as their
shapes say. -/
theorem fits_record_iff {required : List Text} {fields : List (Text × Shape)} :
    (record required fields).Fits v ↔ v.IsObject ∧
      (∀ key ∈ required, (v.field? key).isSome = true) ∧ ∀ p ∈ fields, v.Allows p.1 p.2.Fits := by
  rw [Fits]
  constructor
  · rintro ⟨present, rfl, hrequired, hfields⟩
    exact ⟨⟨present, rfl⟩, hrequired, fitsFields_iff.1 hfields⟩
  · rintro ⟨⟨present, rfl⟩, hrequired, hfields⟩
    exact ⟨present, rfl, hrequired, fitsFields_iff.2 hfields⟩

theorem requires_iff {key : Text} {p : Json → Prop} :
    v.Requires key p ↔ (v.field? key).isSome = true ∧ v.Allows key p := by
  unfold Json.Requires Json.Allows
  cases v.field? key <;> simp

theorem fits_testCase : testCase.Fits = Json.IsTestCase := by
  funext v
  refine propext (fits_record_iff.trans ?_)
  simp only [List.forall_mem_cons, List.not_mem_nil, false_imp_iff, implies_true, and_true,
    fits_natural, fits_anyText, fits_word]
  constructor
  · rintro ⟨hobject, ⟨htcId, hmsg, hlen⟩, htcId', hmsg', hlen', hfunction, hcustomization, hhex,
      hout⟩
    exact ⟨hobject, requires_iff.2 ⟨htcId, htcId'⟩, requires_iff.2 ⟨hmsg, hmsg'⟩,
      requires_iff.2 ⟨hlen, hlen'⟩, hfunction, hcustomization, hhex, hout⟩
  · rintro ⟨hobject, htcId, hmsg, hlen, hfunction, hcustomization, hhex, hout⟩
    rw [requires_iff] at htcId hmsg hlen
    exact ⟨hobject, ⟨htcId.1, hmsg.1, hlen.1⟩, htcId.2, hmsg.2, hlen.2, hfunction,
      hcustomization, hhex, hout⟩

theorem fits_testGroup : testGroup.Fits = Json.IsTestGroup := by
  funext v
  refine propext (fits_record_iff.trans ?_)
  simp only [List.forall_mem_cons, List.not_mem_nil, false_imp_iff, implies_true, and_true,
    fits_natural, fits_anyText, fits_truth, fits_word, fits_list, fits_testCase]
  constructor
  · rintro ⟨hobject, ⟨htgId, htype, htests⟩, htgId', htype', hhex, hmax, hmin, hinc, htests'⟩
    exact ⟨hobject, requires_iff.2 ⟨htgId, htgId'⟩, requires_iff.2 ⟨htype, htype'⟩,
      requires_iff.2 ⟨htests, htests'⟩, hhex, hmax, hmin, hinc⟩
  · rintro ⟨hobject, htgId, htype, htests, hhex, hmax, hmin, hinc⟩
    rw [requires_iff] at htgId htype htests
    exact ⟨hobject, ⟨htgId.1, htype.1, htests.1⟩, htgId.2, htype.2, hhex, hmax, hmin, hinc,
      htests.2⟩

theorem fits_vectorSet : vectorSet.Fits = Json.IsVectorSet := by
  funext v
  refine propext (fits_record_iff.trans ?_)
  simp only [List.forall_mem_cons, List.not_mem_nil, false_imp_iff, implies_true, and_true,
    fits_natural, fits_anyText, fits_truth, fits_list, fits_testGroup]
  constructor
  · rintro ⟨hobject, hgroups, hid, halgorithm, hrevision, hsample, hgroups'⟩
    exact ⟨hobject, requires_iff.2 ⟨hgroups, hgroups'⟩, hid, halgorithm, hrevision, hsample⟩
  · rintro ⟨hobject, hgroups, hid, halgorithm, hrevision, hsample⟩
    rw [requires_iff] at hgroups
    exact ⟨hobject, hgroups.1, hid, halgorithm, hrevision, hsample, hgroups.2⟩

end Shape

/-! ## Records -/

open Json (Requires Allows IsText IsTruth IsNatural IsWord)

/-- Every field of the test case is that of the value, or a default if the value leaves it out. -/
structure TestCase.ReadFrom (t : TestCase) (v : Json) : Prop where
  tcId : v.field? "tcId" = some (.number t.tcId)
  msgHex : v.field? "msg" = some (.text t.msgHex)
  bitLength : v.field? "len" = some (.number t.bitLength)
  functionName : (v.field? "functionName").getD (.text []) = .text t.functionName
  customization : (v.field? "customization").getD (.text []) = .text t.customization
  hexCustomization : (v.field? "hexCustomization").getD (.text []) = .text t.hexCustomization
  outLen : (v.field? "outLen").getD (.number (.int 0)) = .number t.outLen

/-- The same for a test group, with its tests in the order of the value. -/
structure TestGroup.ReadFrom (g : TestGroup) (v : Json) : Prop where
  tgId : v.field? "tgId" = some (.number g.tgId)
  testType : v.field? "testType" = some (.text g.testType)
  tests : ∃ items, v.field? "tests" = some (.array items) ∧
    List.Forall₂ TestCase.ReadFrom g.tests items
  hexCustomization : (v.field? "hexCustomization").getD (.bool false) = .bool g.hexCustomization
  maxOutLen : v.field? "maxOutLen" = g.maxOutLen.map .number
  minOutLen : v.field? "minOutLen" = g.minOutLen.map .number
  outLenIncrement : v.field? "outLenIncrement" = g.outLenIncrement.map .number

/-- The same for a vector set, with its groups in the order of the value. -/
structure VectorSet.ReadFrom (vs : VectorSet) (v : Json) : Prop where
  groups : ∃ items, v.field? "testGroups" = some (.array items) ∧
    List.Forall₂ TestGroup.ReadFrom vs.groups items
  vsId : v.field? "vsId" = vs.vsId.map .number
  algorithm : v.field? "algorithm" = vs.algorithm.map .text
  revision : v.field? "revision" = vs.revision.map .text
  isSample : v.field? "isSample" = vs.isSample.map .bool

/-! ## Fields of one kind -/

namespace Json

variable {v : Json} {key : Text} {p q : Json → Prop}

theorem IsNatural.isNumber (h : v.IsNatural) : ∃ n, v = .number n := h.imp fun _ hn => hn.1

theorem IsWord.isNumber (h : v.IsWord) : ∃ n, v = .number n := h.imp fun _ hn => hn.1

theorem Requires.imp (h : v.Requires key p) (hpq : ∀ w, p w → q w) : v.Requires key q := by
  obtain ⟨w, hw, hp⟩ := h
  exact ⟨w, hw, hpq w hp⟩

theorem Allows.imp (h : v.Allows key p) (hpq : ∀ w, p w → q w) : v.Allows key q :=
  fun w hw => hpq w (h w hw)

/-- Values of one kind: how they are made, and how what they are made of is got out of them. -/
structure Form (α : Type) where
  make : α → Json
  get? : Json → Option α
  get?_make : ∀ a, get? (make a) = some a

namespace Form

/-- Texts. -/
def text : Form Text := ⟨.text, text?, fun _ => rfl⟩

/-- Numbers. -/
def number : Form Number := ⟨.number, number?, fun _ => rfl⟩

/-- Truth values. -/
def truth : Form Bool := ⟨.bool, bool?, fun _ => rfl⟩

variable {α : Type} (form : Form α) {default a : α} {o : Option Json} {x : Option α}

/-- A required field is made of what is got out of it. -/
theorem required_get (h : ∃ w, o = some w ∧ ∃ a, w = form.make a) :
    o = some (form.make ((o.bind form.get?).getD default)) := by
  obtain ⟨w, rfl, a, rfl⟩ := h
  simp [form.get?_make]

/-- An optional field is there if something is got out of it, and made of that. -/
theorem optional_get (h : ∀ w, o = some w → ∃ a, w = form.make a) :
    o = (o.bind form.get?).map form.make := by
  cases o with
  | none => rfl
  | some w =>
    obtain ⟨a, rfl⟩ := h w rfl
    simp [form.get?_make]

/-- A field or its default is made of what is got out of it, or of the default. -/
theorem default_get (h : ∀ w, o = some w → ∃ a, w = form.make a) :
    o.getD (form.make default) = form.make ((o.bind form.get?).getD default) := by
  cases o with
  | none => rfl
  | some w =>
    obtain ⟨a, rfl⟩ := h w rfl
    simp [form.get?_make]

theorem make_inj {b : α} (h : form.make a = form.make b) : a = b := by
  have hget := congrArg form.get? h
  rw [form.get?_make, form.get?_make] at hget
  exact Option.some.inj hget

theorem eq_of_default (h : o.getD (form.make default) = form.make a) :
    a = (o.bind form.get?).getD default := by
  cases o with
  | none => exact form.make_inj h.symm
  | some w =>
    obtain rfl : w = form.make a := h
    simp [form.get?_make]

theorem eq_of_required (h : o = some (form.make a)) : a = (o.bind form.get?).getD default :=
  form.eq_of_default (by rw [h]; rfl)

theorem eq_of_optional (h : o = x.map form.make) : x = o.bind form.get? := by
  rw [h]
  cases x <;> simp [form.get?_make]

end Form

end Json

/-! ## Reading records -/

variable {v : Json}

/-- The test case of an object that holds one is read from it. -/
theorem TestCase.readFrom_ofJson (h : v.IsTestCase) : (ofJson v).ReadFrom v where
  tcId := Json.Form.number.required_get (h.tcId.imp fun _ => IsNatural.isNumber)
  msgHex := Json.Form.text.required_get h.msg
  bitLength := Json.Form.number.required_get (h.len.imp fun _ => IsNatural.isNumber)
  functionName := Json.Form.text.default_get h.functionName
  customization := Json.Form.text.default_get h.customization
  hexCustomization := Json.Form.text.default_get h.hexCustomization
  outLen := Json.Form.number.default_get (h.outLen.imp fun _ => IsWord.isNumber)

/-- No other test case is. -/
theorem TestCase.ReadFrom.eq_ofJson {t : TestCase} (h : t.ReadFrom v) : t = .ofJson v := by
  cases t
  congr
  · exact Json.Form.number.eq_of_required h.tcId
  · exact Json.Form.text.eq_of_required h.msgHex
  · exact Json.Form.number.eq_of_required h.bitLength
  · exact Json.Form.text.eq_of_default h.functionName
  · exact Json.Form.text.eq_of_default h.customization
  · exact Json.Form.text.eq_of_default h.hexCustomization
  · exact Json.Form.number.eq_of_default h.outLen

section

variable {α : Type} {key : Text} {R : α → Json → Prop} {ofJson : Json → α}

theorem itemsField_of_array {items : List Json} (h : v.field? key = some (.array items)) :
    v.itemsField key = items := by
  unfold Json.itemsField
  rw [h]
  rfl

/-- The records of the items of a list field are read from them. -/
theorem readFrom_items {p : Json → Prop} (h : v.Requires key (Json.IsListOf p))
    (hread : ∀ i, p i → R (ofJson i) i) : ∃ items, v.field? key = some (.array items) ∧
      List.Forall₂ R ((v.itemsField key).map ofJson) items := by
  obtain ⟨w, hw, items, rfl, hitems⟩ := h
  refine ⟨items, hw, ?_⟩
  rw [itemsField_of_array hw, List.forall₂_map_left_iff, List.forall₂_same]
  exact fun i hi => hread i (hitems i hi)

/-- No other records are. -/
theorem eq_items {as : List α}
    (h : ∃ items, v.field? key = some (.array items) ∧ List.Forall₂ R as items)
    (hread : ∀ a i, R a i → a = ofJson i) : as = (v.itemsField key).map ofJson := by
  obtain ⟨items, hw, hall⟩ := h
  have hmap := map_eq_of_forall₂ (f := id) (g := ofJson) hall fun a i ha => (hread a i ha).symm
  rw [itemsField_of_array hw, hmap, List.map_id]

end

theorem TestGroup.readFrom_ofJson (h : v.IsTestGroup) : (ofJson v).ReadFrom v where
  tgId := Json.Form.number.required_get (h.tgId.imp fun _ => IsNatural.isNumber)
  testType := Json.Form.text.required_get h.testType
  tests := readFrom_items h.tests fun _ => TestCase.readFrom_ofJson
  hexCustomization := Json.Form.truth.default_get h.hexCustomization
  maxOutLen := Json.Form.number.optional_get (h.maxOutLen.imp fun _ => IsWord.isNumber)
  minOutLen := Json.Form.number.optional_get (h.minOutLen.imp fun _ => IsWord.isNumber)
  outLenIncrement := Json.Form.number.optional_get (h.outLenIncrement.imp fun _ => IsWord.isNumber)

theorem TestGroup.ReadFrom.eq_ofJson {g : TestGroup} (h : g.ReadFrom v) : g = .ofJson v := by
  cases g
  congr
  · exact Json.Form.number.eq_of_required h.tgId
  · exact Json.Form.text.eq_of_required h.testType
  · exact eq_items h.tests fun _ _ => TestCase.ReadFrom.eq_ofJson
  · exact Json.Form.truth.eq_of_default h.hexCustomization
  · exact Json.Form.number.eq_of_optional h.maxOutLen
  · exact Json.Form.number.eq_of_optional h.minOutLen
  · exact Json.Form.number.eq_of_optional h.outLenIncrement

namespace VectorSet

variable {vs : VectorSet} {version : Option Text}

theorem readFrom_ofBody (h : v.IsVectorSet) : (ofBody v version).ReadFrom v where
  groups := readFrom_items h.testGroups fun _ => TestGroup.readFrom_ofJson
  vsId := Json.Form.number.optional_get (h.vsId.imp fun _ => IsNatural.isNumber)
  algorithm := Json.Form.text.optional_get h.algorithm
  revision := Json.Form.text.optional_get h.revision
  isSample := Json.Form.truth.optional_get h.isSample

theorem ReadFrom.eq_ofBody (h : vs.ReadFrom v) : vs = ofBody v vs.acvVersion := by
  cases vs
  congr
  · exact eq_items h.groups fun _ _ => TestGroup.ReadFrom.eq_ofJson
  · exact Json.Form.number.eq_of_optional h.vsId
  · exact Json.Form.text.eq_of_optional h.algorithm
  · exact Json.Form.text.eq_of_optional h.revision
  · exact Json.Form.truth.eq_of_optional h.isSample

/-! ## Top theorem -/

/-- A document that holds no vector set is bad input. -/
theorem exists_of_ofDocument_eq_error {d : Document} {f : Fault} (h : ofDocument d = .error f) :
    ∃ why, f = .input why := by
  rcases cases_of_bind_eq_error h with hload | ⟨v, -, h⟩
  · exact Document.exists_of_load_eq_error hload
  rcases cases_of_bind_eq_error h with hunwrap | ⟨⟨body, version⟩, -, h⟩
  · exact Envelope.exists_of_unwrap_eq_error hunwrap
  dsimp only at h
  split at h
  · cases h
  · cases h
    exact ⟨_, rfl⟩

/-- Whatever the document: it is bad input, or it holds the one vector set whose fields are those of
its body or defaults. It holds one if and only if it opens to a body that is a vector set. -/
theorem ofDocument_decides (d : Document) :
    (∀ f, ofDocument d = .error f → ∃ why, f = .input why) ∧
    ((∃ vs, ofDocument d = .ok vs) ↔ ∃ v body version, d.load = .ok v ∧
      Envelope.Frames v body version ∧ body.IsVectorSet) ∧
    ∀ vs, ofDocument d = .ok vs ↔ ∃ v body, d.load = .ok v ∧
      Envelope.Frames v body vs.acvVersion ∧ body.IsVectorSet ∧ vs.ReadFrom body := by
  have hholds : ∀ vs, ofDocument d = .ok vs ↔ ∃ v body version, d.load = .ok v ∧
      Envelope.Frames v body version ∧ body.IsVectorSet ∧ vs = ofBody body version := by
    intro vs
    rw [ofDocument_eq_ok_iff, Shape.fits_vectorSet]
    simp only [Envelope.unwrap_eq_ok_iff]
  refine ⟨fun f => exists_of_ofDocument_eq_error, ?_, fun vs => ?_⟩
  · constructor
    · rintro ⟨vs, h⟩
      obtain ⟨v, body, version, hload, hframes, hbody, -⟩ := (hholds vs).1 h
      exact ⟨v, body, version, hload, hframes, hbody⟩
    · rintro ⟨v, body, version, hload, hframes, hbody⟩
      exact ⟨_, (hholds _).2 ⟨v, body, version, hload, hframes, hbody, rfl⟩⟩
  · rw [hholds]
    constructor
    · rintro ⟨v, body, version, hload, hframes, hbody, rfl⟩
      exact ⟨v, body, hload, hframes, hbody, readFrom_ofBody hbody⟩
    · rintro ⟨v, body, hload, hframes, hbody, hread⟩
      exact ⟨v, body, _, hload, hframes, hbody, hread.eq_ofBody⟩

end VectorSet

end XofConformance
