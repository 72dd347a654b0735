import XofConformance.Proofs.Bytes.Hex
import XofConformance.Proofs.Prepared.Distinct
import XofConformance.Proofs.Prepared.Validation

/-!
# Well-formed vector sets

What a vector set has to be, said without saying how it is checked, and what it is decoded to. A set
of integers and of texts without lone surrogates is prepared if and only if it is well formed, and
then it is prepared as it is decoded. If it is not, the first group that spoils it is told, and in
it the first case that does, unless the group is spoiled by what it is itself.

    (∃ groups, vs.prepare = .ok groups) ↔ vs.WellFormed, and who is to blame    (prepare_decides)
-/

namespace XofConformance

/-! ## Well-formedness -/

/-- The number is a multiple of eight, of any size and sign. -/
def Number.IsEightfold (n : Number) : Prop := ∃ k : Int, n = .int (8 * k)

/-- At most one form of customization is given, and what is given in hexadecimal spells something.
-/
def TestCase.HasCustomization (t : TestCase) : Prop :=
  (t.customization = [] ∨ t.hexCustomization = []) ∧ ∃ b : Bytes, b.SpelledBy t.hexCustomization

/-- The message spells as many bits as are told, and the output is whole bytes. -/
structure TestCase.WellFormed (t : TestCase) : Prop where
  customization : t.HasCustomization
  message : ∃ b : Bytes, b.SpelledBy t.msgHex ∧ t.bitLength = .int (8 * b.length : Nat)
  outLen : t.outLen.IsEightfold

/-- All three bounds are there, each a multiple of eight, and the least is not above the greatest.
-/
def TestGroup.HasBounds (g : TestGroup) : Prop :=
  ∃ least greatest increment : Int, g.minOutLen = some (.int (8 * least)) ∧
    g.maxOutLen = some (.int (8 * greatest)) ∧ g.outLenIncrement = some (.int (8 * increment)) ∧
    least ≤ greatest

/-- The type of a group is one of the two, and a Monte Carlo group has its bounds. -/
structure TestGroup.HeadFormed (g : TestGroup) : Prop where
  testType : g.testType = "AFT" ∨ g.testType = "MCT"
  bounds : g.testType = "MCT" → g.HasBounds

/-- Nothing is wrong with the group itself, and its cases are well formed and have distinct
identifiers. -/
structure TestGroup.WellFormed (g : TestGroup) : Prop where
  head : g.HeadFormed
  tests : EachOnce TestCase.tcId TestCase.WellFormed g.tests

/-- The groups are well formed and have distinct identifiers. -/
def VectorSet.WellFormed (vs : VectorSet) : Prop :=
  EachOnce TestGroup.tgId TestGroup.WellFormed vs.groups

/-- The group with its first cases only. -/
def TestGroup.cut (g : TestGroup) (n : Nat) : TestGroup := { g with tests := g.tests.take n }

/-- The set with its first groups only. -/
def VectorSet.cut (vs : VectorSet) (n : Nat) : VectorSet := { vs with groups := vs.groups.take n }

/-! ## Decoding -/

/-- The bytes of a customization: those of the text, if there is one, else what is spelled. -/
def TestCase.CustomizesAs (t : TestCase) (b : Bytes) : Prop :=
  if t.customization = [] then b.SpelledBy t.hexCustomization
  else t.customization.toUtf8? = some b

/-- The bytes of the case are those that its texts spell, and the rest is kept. -/
structure TestCase.Decodes (t : TestCase) (c : PreparedCase) : Prop where
  tcId : c.tcId = t.tcId
  outLen : c.outLen = t.outLen
  message : c.msg.SpelledBy t.msgHex
  functionName : t.functionName.toUtf8? = some c.functionName
  customization : t.CustomizesAs c.customization

/-- A Monte Carlo group keeps its bounds, a functional group has none. -/
def TestGroup.KeepsBounds (g : TestGroup) (b : Bounds) : Prop :=
  (g.testType = "AFT" → b = {}) ∧
    (g.testType = "MCT" → g.minOutLen = some b.minOutLen ∧ g.maxOutLen = some b.maxOutLen ∧
      g.outLenIncrement = some b.outLenIncrement)

/-- The group is kept, with its cases decoded. -/
structure TestGroup.Decodes (g : TestGroup) (p : PreparedGroup) : Prop where
  tgId : p.tgId = g.tgId
  testType : p.testType.name = g.testType
  bounds : g.KeepsBounds p.bounds
  cases : List.Forall₂ TestCase.Decodes g.tests p.cases

/-! ## Blame -/

/-- The fault tells the first case with which the group is not well formed any more. -/
def TestGroup.BlamesCase (g : TestGroup) (why : VectorFault) : Prop :=
  ∃ j t, g.tests[j]? = some t ∧ why.tcId? = some t.tcId ∧ (∀ k ≤ j, (g.cut k).WellFormed) ∧
    ¬ (g.cut (j + 1)).WellFormed

/-- The fault tells the group, and a case of it unless something is wrong with the group itself. -/
def TestGroup.Blames (g : TestGroup) (why : VectorFault) : Prop :=
  why.tgId? = some g.tgId ∧ (¬ g.HeadFormed → why.tcId? = none) ∧ (g.HeadFormed → g.BlamesCase why)

/-! ## Integers and texts -/

/-- The numbers of the case are integers, and its texts hold no lone surrogate. -/
structure TestCase.IsPlain (t : TestCase) : Prop where
  tcId : t.tcId.IsInt
  bitLength : t.bitLength.IsInt
  outLen : t.outLen.IsInt
  functionName : ∀ c ∈ t.functionName, Text.IsScalar c
  customization : ∀ c ∈ t.customization, Text.IsScalar c

/-- The numbers of the group and of its cases are integers, and the texts hold no lone surrogate. -/
structure TestGroup.IsPlain (g : TestGroup) : Prop where
  tgId : g.tgId.IsInt
  minOutLen : ∀ n ∈ g.minOutLen, n.IsInt
  maxOutLen : ∀ n ∈ g.maxOutLen, n.IsInt
  outLenIncrement : ∀ n ∈ g.outLenIncrement, n.IsInt
  tests : ∀ t ∈ g.tests, t.IsPlain

/-- All numbers of the set are integers, and its texts hold no lone surrogate. -/
def VectorSet.IsPlain (vs : VectorSet) : Prop := ∀ g ∈ vs.groups, g.IsPlain

theorem Number.isWholeBytes_iff {n : Number} (h : n.IsInt) :
    n.isWholeBytes = true ↔ n.IsEightfold := by
  obtain ⟨k, rfl⟩ := h
  have hrest : (Number.int k).isWholeBytes = true ↔ k % 8 = 0 := beq_iff_eq
  rw [hrest]
  constructor
  · intro h
    exact ⟨k / 8, congrArg Number.int (by omega)⟩
  · rintro ⟨j, hj⟩
    have hkj : k = 8 * j := Number.int.inj hj
    omega

theorem encodeText_of_scalar {t : Text} (h : ∀ c ∈ t, Text.IsScalar c) :
    ∃ b, encodeText t = .ok b ∧ t.toUtf8? = some b := by
  have hall : t.all (fun c => decide (Text.IsScalar c)) = true :=
    List.all_eq_true.2 fun c hc => decide_eq_true (h c hc)
  have hbytes : t.toUtf8? = some (t.flatMap Text.utf8Char) := by
    unfold Text.toUtf8?
    rw [if_pos hall]
  refine ⟨_, ?_, hbytes⟩
  unfold encodeText
  rw [hbytes]

/-! ## Cases -/

namespace TestCase

variable {t : TestCase}

/-- Digits are decoded to what they spell, or they spell nothing. -/
theorem hexBytes_spec (tgId tcId : Number) (defect : EncodingFault → CaseDefect) (digits : Text) :
    (∃ b, hexBytes tgId tcId defect digits = .ok b ∧ b.SpelledBy digits) ∨
      ∃ why, hexBytes tgId tcId defect digits = .error (.vector (.inCase tgId tcId why)) ∧
        ¬ ∃ b : Bytes, b.SpelledBy digits := by
  unfold hexBytes
  cases hd : Bytes.decodeHex digits with
  | ok b => exact Or.inl ⟨b, rfl, Bytes.decodeHex_iff.1 hd⟩
  | error why =>
    refine Or.inr ⟨_, rfl, ?_⟩
    rintro ⟨b, hb⟩
    rw [Bytes.decodeHex_iff.2 hb] at hd
    cases hd

theorem customizationBytes_spec (tgId : Number) (ht : t.IsPlain) :
    (∃ b, t.customizationBytes tgId = .ok b ∧ t.HasCustomization ∧ t.CustomizesAs b) ∨
      ∃ why, t.customizationBytes tgId = .error (.vector (.inCase tgId t.tcId why)) ∧
        ¬ t.HasCustomization := by
  unfold customizationBytes HasCustomization CustomizesAs
  cases hc : t.customization with
  | nil =>
    rcases hexBytes_spec tgId t.tcId .customization t.hexCustomization with
      ⟨b, hb, hspell⟩ | ⟨why, he, hno⟩
    · exact Or.inl ⟨b, hb, ⟨Or.inl rfl, b, hspell⟩, hspell⟩
    · exact Or.inr ⟨why, he, fun h => hno h.2⟩
  | cons c rest =>
    cases hh : t.hexCustomization with
    | nil =>
      have hscalar : ∀ c' ∈ c :: rest, Text.IsScalar c' := hc ▸ ht.customization
      obtain ⟨b, hb, hbytes⟩ := encodeText_of_scalar hscalar
      exact Or.inl ⟨b, hb, ⟨Or.inr rfl, [], rfl⟩, hbytes⟩
    | cons d digits =>
      refine Or.inr ⟨.twoCustomizations, rfl, ?_⟩
      rintro ⟨h | h, -⟩ <;> cases h

/-- A case is prepared if it is well formed, as it is decoded; else the case is told. -/
theorem prepare_spec (tgId : Number) (ht : t.IsPlain) :
    (∃ c, t.prepare tgId = .ok c ∧ t.WellFormed ∧ t.Decodes c) ∨
      ∃ e, t.prepare tgId = .error e ∧ ¬ t.WellFormed ∧
        ∃ why, e = .vector (.inCase tgId t.tcId why) := by
  unfold prepare
  rcases customizationBytes_spec tgId ht with ⟨customization, hc, hform, hcust⟩ | ⟨why, he, hno⟩
  case inr =>
    rw [he]
    exact Or.inr ⟨_, rfl, fun h => hno h.customization, why, rfl⟩
  rcases hexBytes_spec tgId t.tcId .content t.msgHex with ⟨msg, hm, hmsg⟩ | ⟨why, he, hno⟩
  case inr =>
    rw [hc, he]
    exact Or.inr ⟨_, rfl, fun h => hno (h.message.imp fun _ hb => hb.1), why, rfl⟩
  obtain ⟨functionName, hf, hname⟩ := encodeText_of_scalar ht.functionName
  have hbits : Number.equal (.int msg.bitLength) t.bitLength = true ↔
      t.bitLength = .int (8 * msg.length : Nat) := by
    obtain ⟨n, hn⟩ := ht.bitLength
    rw [hn, Number.equal_int, Number.int.injEq, Bytes.bitLength, Nat.mul_comm, eq_comm]
  have hbytes := Number.isWholeBytes_iff ht.outLen
  rw [hc, hm, hf]
  simp only [bind, Except.bind]
  cases hl : Number.equal (.int msg.bitLength) t.bitLength with
  | false =>
    refine Or.inr ⟨_, rfl, fun h => ?_, _, rfl⟩
    obtain ⟨b, hb, hlength⟩ := h.message
    rw [hb.unique hmsg, ← hbits, hl] at hlength
    cases hlength
  | true =>
    cases hw : t.outLen.isWholeBytes with
    | false =>
      refine Or.inr ⟨_, rfl, fun h => ?_, _, rfl⟩
      rw [hbytes.2 h.outLen] at hw
      cases hw
    | true =>
      exact Or.inl ⟨_, rfl, ⟨hform, ⟨msg, hmsg, hbits.1 hl⟩, hbytes.1 hw⟩,
        ⟨rfl, rfl, hmsg, hname, hcust⟩⟩

end TestCase

/-! ## Groups -/

theorem TestType.ofName?_eq_some_iff {name : Text} {type : TestType} :
    TestType.ofName? name = some type ↔ type.name = name := by
  constructor
  · intro h
    unfold ofName? at h
    have hname := List.find?_some h
    exact beq_iff_eq.1 hname
  · rintro rfl
    cases type <;> rfl

namespace TestGroup

variable {g : TestGroup}

/-- A bound is a multiple of eight, or the group is told. -/
theorem bound_spec (tgId : Number) (name : Text) {o : Option Number} (ho : ∀ n ∈ o, n.IsInt) :
    (∃ k : Int, bound tgId name o = .ok (.int (8 * k)) ∧ o = some (.int (8 * k))) ∨
      ∃ why, bound tgId name o = .error (.vector (.group tgId why)) ∧
        ¬ ∃ k : Int, o = some (.int (8 * k)) := by
  unfold bound
  cases o with
  | none => exact Or.inr ⟨_, rfl, nofun⟩
  | some n =>
    have hbytes := Number.isWholeBytes_iff (ho n rfl)
    simp only
    by_cases hw : n.isWholeBytes = true
    · obtain ⟨k, rfl⟩ := hbytes.1 hw
      rw [if_pos hw]
      exact Or.inl ⟨k, rfl, rfl⟩
    · rw [if_neg hw]
      refine Or.inr ⟨_, rfl, ?_⟩
      rintro ⟨k, hk⟩
      exact hw (hbytes.2 ⟨k, Option.some.inj hk⟩)

/-- The bounds of a Monte Carlo group are as they should be, or the group is told. -/
theorem prepareBounds_spec (hg : g.IsPlain) :
    (∃ b, g.prepareBounds .monteCarlo = .ok b ∧ g.HasBounds ∧ g.minOutLen = some b.minOutLen ∧
      g.maxOutLen = some b.maxOutLen ∧ g.outLenIncrement = some b.outLenIncrement) ∨
    ∃ why, g.prepareBounds .monteCarlo = .error (.vector (.group g.tgId why)) ∧ ¬ g.HasBounds := by
  unfold prepareBounds HasBounds
  rcases bound_spec g.tgId "minOutLen" hg.minOutLen with ⟨least, hl, hleast⟩ | ⟨why, he, hno⟩
  case inr =>
    rw [he]
    refine Or.inr ⟨why, rfl, ?_⟩
    rintro ⟨least, _, _, h, -⟩
    exact hno ⟨least, h⟩
  rcases bound_spec g.tgId "maxOutLen" hg.maxOutLen with ⟨greatest, hm, hgreatest⟩ | ⟨why, he, hno⟩
  case inr =>
    rw [hl, he]
    refine Or.inr ⟨why, rfl, ?_⟩
    rintro ⟨_, greatest, _, -, h, -⟩
    exact hno ⟨greatest, h⟩
  rcases bound_spec g.tgId "outLenIncrement" hg.outLenIncrement with
    ⟨increment, hi, hincrement⟩ | ⟨why, he, hno⟩
  case inr =>
    rw [hl, hm, he]
    refine Or.inr ⟨why, rfl, ?_⟩
    rintro ⟨_, _, increment, -, -, h, -⟩
    exact hno ⟨increment, h⟩
  rw [hl, hm, hi]
  simp only [bind, Except.bind]
  cases horder : Number.lt (.int (8 * greatest)) (.int (8 * least)) with
  | true =>
    refine Or.inr ⟨_, rfl, ?_⟩
    rintro ⟨least', greatest', _, hleast', hgreatest', -, hle⟩
    have hlt := Number.lt_int.1 horder
    rw [hleast] at hleast'
    rw [hgreatest] at hgreatest'
    have h₁ : 8 * least = 8 * least' := Number.int.inj (Option.some.inj hleast')
    have h₂ : 8 * greatest = 8 * greatest' := Number.int.inj (Option.some.inj hgreatest')
    omega
  | false =>
    have hle : least ≤ greatest := by
      have hnot : ¬ 8 * greatest < 8 * least := fun h => by
        rw [Number.lt_int.2 h] at horder
        cases horder
      omega
    exact Or.inl ⟨_, rfl, ⟨least, greatest, increment, hleast, hgreatest, hincrement, hle⟩, hleast,
      hgreatest, hincrement⟩

/-- The type and the bounds of a group are as they should be, or the group is told. -/
theorem head_spec {type : TestType} (hg : g.IsPlain) (htype : type.name = g.testType) :
    (∃ b, g.prepareBounds type = .ok b ∧ g.HeadFormed ∧ g.KeepsBounds b) ∨
      ∃ why, g.prepareBounds type = .error (.vector (.group g.tgId why)) ∧ ¬ g.HeadFormed := by
  have hother : TestType.functional.name ≠ TestType.monteCarlo.name := by decide
  cases type with
  | functional =>
    have hnot : g.testType ≠ "MCT" := htype ▸ hother
    exact Or.inl ⟨{}, rfl, ⟨Or.inl htype.symm, fun h => absurd h hnot⟩, fun _ => rfl,
      fun h => absurd h hnot⟩
  | monteCarlo =>
    have hnot : g.testType ≠ "AFT" := htype ▸ hother.symm
    rcases prepareBounds_spec hg with ⟨b, hb, hbounds, hkeeps⟩ | ⟨why, he, hno⟩
    · exact Or.inl ⟨b, hb, ⟨Or.inr htype.symm, fun _ => hbounds⟩, fun h => absurd h hnot,
        fun _ => hkeeps⟩
    · exact Or.inr ⟨why, he, fun h => hno (h.bounds htype.symm)⟩

/-- The cases of a group are prepared if they are well formed and distinct; else the first case that
spoils this is told. -/
theorem tests_spec (hg : g.IsPlain) :
    (∃ cases, TestCase.prepareAll g.tgId [] g.tests = .ok cases ∧
      EachOnce TestCase.tcId TestCase.WellFormed g.tests ∧
      List.Forall₂ TestCase.Decodes g.tests cases) ∨
    ∃ j t why, g.tests[j]? = some t ∧
      TestCase.prepareAll g.tgId [] g.tests = .error (.vector why) ∧ why.tgId? = some g.tgId ∧
      why.tcId? = some t.tcId ∧ EachOnce TestCase.tcId TestCase.WellFormed (g.tests.take j) ∧
      ¬ EachOnce TestCase.tcId TestCase.WellFormed (g.tests.take (j + 1)) := by
  rw [TestCase.prepareAll_eq]
  rcases prepareDistinct_spec (fun t => .vector (.repeatedCase g.tgId t.tcId))
    (fun t ht => (hg.tests t ht).tcId) fun t ht => TestCase.prepare_spec g.tgId (hg.tests t ht) with
    ⟨cases, hall, hfine, hdecodes⟩ | ⟨j, t, e, hj, he, hfine, hspoilt, hwhy⟩
  · exact Or.inl ⟨cases, hall, hfine, hdecodes⟩
  · rcases hwhy with ⟨-, rfl⟩ | ⟨-, -, why, rfl⟩
    · exact Or.inr ⟨j, t, _, hj, he, rfl, rfl, hfine, hspoilt⟩
    · exact Or.inr ⟨j, t, _, hj, he, rfl, rfl, hfine, hspoilt⟩

/-- A group is prepared if it is well formed, as it is decoded; else it is told, with its first bad
case if it has one. -/
theorem prepare_spec (hg : g.IsPlain) :
    (∃ p, g.prepare = .ok p ∧ g.WellFormed ∧ g.Decodes p) ∨
      ∃ e, g.prepare = .error e ∧ ¬ g.WellFormed ∧ ∃ why, e = .vector why ∧ g.Blames why := by
  unfold prepare
  cases htype : TestType.ofName? g.testType with
  | none =>
    have hno : ¬ g.HeadFormed := by
      have hnone : ∀ type : TestType, g.testType ≠ type.name := by
        intro type h
        rw [TestType.ofName?_eq_some_iff.2 h.symm] at htype
        cases htype
      rintro ⟨h | h, -⟩
      · exact hnone .functional h
      · exact hnone .monteCarlo h
    exact Or.inr ⟨_, rfl, fun h => hno h.head, _, rfl, rfl, fun _ => rfl, fun h => absurd h hno⟩
  | some type =>
    have hname := TestType.ofName?_eq_some_iff.1 htype
    simp only
    rcases head_spec hg hname with ⟨b, hb, hhead, hkeeps⟩ | ⟨why, he, hno⟩
    case inr =>
      rw [he]
      exact Or.inr ⟨_, rfl, fun h => hno h.head, _, rfl, rfl, fun _ => rfl, fun h => absurd h hno⟩
    rw [hb]
    rcases tests_spec hg with
      ⟨cases, hc, hfine, hdecodes⟩ | ⟨j, t, why, hj, he, htg, htc, hfine, hspoilt⟩
    · rw [hc]
      exact Or.inl ⟨_, rfl, ⟨hhead, hfine⟩, ⟨rfl, hname, hkeeps, hdecodes⟩⟩
    · rw [he]
      refine Or.inr ⟨_, rfl, fun h => hspoilt (h.tests.take _), why, rfl, htg,
        fun h => absurd hhead h, fun _ => ⟨j, t, hj, htc, fun k hk => ?_, fun h => hspoilt h.tests⟩⟩
      have hcut := hfine.take k
      rw [List.take_take, Nat.min_eq_left hk] at hcut
      exact ⟨⟨hhead.testType, hhead.bounds⟩, hcut⟩

end TestGroup

/-! ## Top theorem -/

/-- A set of integers and of texts without lone surrogates is prepared if and only if it is well
formed, and then it is prepared as it is decoded. If it is not well formed, the first group with
which it is not is told; and the first case with which the group is not, unless the group repeats an
identifier or something is wrong with its type or its bounds. -/
theorem VectorSet.prepare_decides {vs : VectorSet} (hvs : vs.IsPlain) :
    ((∃ groups, vs.prepare = .ok groups) ↔ vs.WellFormed) ∧
    (∀ groups, vs.prepare = .ok groups → List.Forall₂ TestGroup.Decodes vs.groups groups) ∧
    (¬ vs.WellFormed → ∃ why i g, vs.prepare = .error (.vector why) ∧ vs.groups[i]? = some g ∧
      (∀ k ≤ i, (vs.cut k).WellFormed) ∧ ¬ (vs.cut (i + 1)).WellFormed ∧
      why.tgId? = some g.tgId ∧
      ((g.tgId ∈ (vs.groups.take i).map TestGroup.tgId ∨ ¬ g.HeadFormed) → why.tcId? = none) ∧
      (g.tgId ∉ (vs.groups.take i).map TestGroup.tgId → g.HeadFormed → g.BlamesCase why)) := by
  have hprep : vs.prepare = prepareDistinct TestGroup.tgId
      (fun g => .vector (.repeatedGroup g.tgId)) TestGroup.prepare [] vs.groups :=
    TestGroup.prepareAll_eq
  rcases prepareDistinct_spec (fun g => .vector (.repeatedGroup g.tgId))
    (fun g hg => (hvs g hg).tgId) fun g hg => TestGroup.prepare_spec (hvs g hg) with
    ⟨groups, hall, hfine, hdecodes⟩ | ⟨i, g, e, hi, he, hfine, hspoilt, hwhy⟩
  · rw [← hprep] at hall
    refine ⟨iff_of_true ⟨groups, hall⟩ hfine, fun groups' h => ?_, fun h => absurd hfine h⟩
    rw [hall] at h
    cases h
    exact hdecodes
  · rw [← hprep] at he
    have hbad : ¬ vs.WellFormed := fun h => hspoilt (EachOnce.take h _)
    have hcut : ∀ k ≤ i, (vs.cut k).WellFormed := by
      intro k hk
      have hk' := hfine.take k
      rw [List.take_take, Nat.min_eq_left hk] at hk'
      exact hk'
    have hnone : ∀ groups, vs.prepare ≠ .ok groups := by
      intro groups h
      rw [he] at h
      cases h
    refine ⟨iff_of_false (fun ⟨groups, h⟩ => hnone groups h) hbad,
      fun groups h => absurd h (hnone groups), fun _ => ?_⟩
    rcases hwhy with ⟨hm, rfl⟩ | ⟨hm, -, why, rfl, htg, hhead, hcase⟩
    · exact ⟨_, i, g, he, hi, hcut, hspoilt, rfl, fun _ => rfl, fun hm' => absurd hm hm'⟩
    · refine ⟨why, i, g, he, hi, hcut, hspoilt, htg, fun h => ?_, fun _ => hcase⟩
      exact hhead (h.resolve_left hm)

/-- A Monte Carlo group whose second case has an odd number of digits. -/
def VectorSet.oddDigits : VectorSet :=
  { groups := [{ tgId := .int 1, testType := "MCT", minOutLen := some (.int 128),
                 maxOutLen := some (.int 256), outLenIncrement := some (.int 8), tests := [
    { tcId := .int 1, msgHex := "0A", bitLength := .int 8 },
    { tcId := .int 2, msgHex := "0", bitLength := .int 4 }] }] }

/-- Nothing is wrong with the group itself, so the set is refused for one of its cases. -/
theorem VectorSet.oddDigits_prepare_decides :
    VectorSet.oddDigits.IsPlain ∧ ¬ VectorSet.oddDigits.WellFormed ∧
      ∃ g why, VectorSet.oddDigits.groups = [g] ∧
        VectorSet.oddDigits.prepare = .error (.vector why) ∧ g.HeadFormed ∧ g.BlamesCase why := by
  have hint : ∀ n : Int, (Number.int n).IsInt := fun n => ⟨n, rfl⟩
  have hplain : VectorSet.oddDigits.IsPlain := by
    intro g hg
    obtain rfl := List.mem_singleton.1 hg
    refine ⟨hint 1, fun n hn => ?_, fun n hn => ?_, fun n hn => ?_, fun t ht => ?_⟩
    · cases hn
      exact hint 128
    · cases hn
      exact hint 256
    · cases hn
      exact hint 8
    · rcases List.mem_cons.1 ht with rfl | ht
      · exact ⟨hint 1, hint 8, hint 0, nofun, nofun⟩
      · obtain rfl := List.mem_singleton.1 ht
        exact ⟨hint 2, hint 4, hint 0, nofun, nofun⟩
  obtain ⟨hiff, -, hblame⟩ := VectorSet.prepare_decides hplain
  have hbad : ¬ VectorSet.oddDigits.WellFormed := by
    rw [← hiff]
    rintro ⟨groups, h⟩
    have hrefused : VectorSet.oddDigits.prepare.toOption.isSome = false := by decide +kernel
    rw [h] at hrefused
    cases hrefused
  obtain ⟨why, i, g, he, hi, -, -, -, -, hcase⟩ := hblame hbad
  obtain ⟨hlt, rfl⟩ := List.getElem?_eq_some_iff.1 hi
  obtain rfl : i = 0 := Nat.lt_one_iff.1 hlt
  have hhead : VectorSet.oddDigits.groups[0].HeadFormed :=
    ⟨Or.inr rfl, fun _ => ⟨16, 32, 1, rfl, rfl, rfl, by decide⟩⟩
  exact ⟨hplain, hbad, _, why, rfl, he, hhead, hcase List.not_mem_nil hhead⟩

end XofConformance
