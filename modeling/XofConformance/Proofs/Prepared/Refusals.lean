import XofConformance.Proofs.Prepared.WellFormed
import XofConformance.VectorSet.Reader

/-!
# Refusals

What holds of every vector set, whatever numbers and texts it is made of: it is prepared, or there
is a first group with which it is not. The fault tells that group, and the first case of it with
which the group is not prepared, unless it is the group itself that is at fault. There is one
exception: a case may hold a text with a lone surrogate, which has no bytes. Then the fault tells
neither the group nor the case.

    vs.prepare = .ok groups, or it is refused from a group on                 (prepare_refuses)
-/

namespace XofConformance

/-! ## First refusals -/

/-- What is done with a number of items is done up to an item, and from that item on it comes to
the fault. -/
structure RefusedFrom {β : Type} (f : Nat → Except Fault β) (i : Nat) (e : Fault) : Prop where
  before : ∀ k ≤ i, ∃ b, f k = .ok b
  after : ∀ k, i < k → f k = .error e

namespace RefusedFrom

variable {β γ : Type} {f : Nat → Except Fault β} {g : Nat → Except Fault γ} {i : Nat} {e : Fault}

/-- The first item is refused. -/
theorem first (hzero : ∃ b, f 0 = .ok b) (hrest : ∀ k, f (k + 1) = .error e) :
    RefusedFrom f 0 e where
  before k hk := by
    obtain rfl := Nat.le_zero.1 hk
    exact hzero
  after k hk := by
    obtain ⟨j, rfl⟩ := Nat.exists_eq_add_one.2 hk
    exact hrest j

/-- The first item is accepted, and what comes of the rest decides. -/
theorem next (h : RefusedFrom g i e) (m : γ → β) (hzero : ∃ b, f 0 = .ok b)
    (hf : ∀ k, f (k + 1) = (g k).map m) : RefusedFrom f (i + 1) e where
  before k hk := by
    cases k with
    | zero => exact hzero
    | succ k =>
      obtain ⟨c, hc⟩ := h.before k (Nat.le_of_succ_le_succ hk)
      exact ⟨m c, by rw [hf, hc]; rfl⟩
  after k hk := by
    obtain ⟨j, rfl⟩ := Nat.exists_eq_add_one.2 (Nat.zero_lt_of_lt hk)
    rw [hf, h.after j (Nat.lt_of_succ_lt_succ hk)]
    rfl

/-- What is made of the items does not matter. -/
theorem map (h : RefusedFrom g i e) (m : γ → β) (hf : ∀ k, f k = (g k).map m) :
    RefusedFrom f i e where
  before k hk := by
    obtain ⟨c, hc⟩ := h.before k hk
    exact ⟨m c, by rw [hf, hc]; rfl⟩
  after k hk := by
    rw [hf, h.after k hk]
    rfl

end RefusedFrom

section

variable {α β : Type} (key : α → Number) (repeated : α → Fault) (prepare : α → Except Fault β)

/-- Either all items are prepared, or there is a first one that has a key seen before or cannot be
prepared itself. -/
theorem prepareDistinct_refused (seen : List Number) (as : List α) :
    (∃ bs, prepareDistinct key repeated prepare seen as = .ok bs) ∨
    ∃ i a e, as[i]? = some a ∧
      RefusedFrom (fun k => prepareDistinct key repeated prepare seen (as.take k)) i e ∧
      (((key a).isAmong ((as.take i).map key ++ seen) = true ∧ e = repeated a) ∨
        ((key a).isAmong ((as.take i).map key ++ seen) = false ∧ prepare a = .error e)) := by
  induction as generalizing seen with
  | nil => exact Or.inl ⟨[], rfl⟩
  | cons a rest ih =>
    have hstep : ∀ items, prepareDistinct key repeated prepare seen (a :: items) =
        if (key a).isAmong seen then .error (repeated a) else prepare a >>= fun b =>
          (prepareDistinct key repeated prepare (key a :: seen) items).map (b :: ·) := by
      intro items
      rw [prepareDistinct]
      cases prepareDistinct key repeated prepare (key a :: seen) items <;> rfl
    cases hseen : (key a).isAmong seen with
    | true =>
      refine Or.inr ⟨0, a, repeated a, rfl, .first ⟨[], rfl⟩ fun k => ?_, Or.inl ⟨hseen, rfl⟩⟩
      rw [List.take_succ_cons, hstep, hseen]
      rfl
    | false =>
      cases hprep : prepare a with
      | error e =>
        refine Or.inr ⟨0, a, e, rfl, .first ⟨[], rfl⟩ fun k => ?_, Or.inr ⟨hseen, hprep⟩⟩
        rw [List.take_succ_cons, hstep, hseen, hprep]
        rfl
      | ok b =>
        have hrest : ∀ items, prepareDistinct key repeated prepare seen (a :: items) =
            (prepareDistinct key repeated prepare (key a :: seen) items).map (b :: ·) := by
          intro items
          rw [hstep, hseen, hprep]
          rfl
        rcases ih (key a :: seen) with ⟨bs, hbs⟩ | ⟨i, a', e, hi, hfrom, hwhy⟩
        · refine Or.inl ⟨b :: bs, ?_⟩
          rw [hrest, hbs]
          rfl
        · refine Or.inr ⟨i + 1, a', e, hi, hfrom.next (b :: ·) ⟨[], rfl⟩ fun k => ?_, ?_⟩
          · rw [List.take_succ_cons, hrest]
          · -- the keys of the items before count as keys seen before
            have hperm : ((rest.take i).map key ++ key a :: seen).Perm
                (((a :: rest).take (i + 1)).map key ++ seen) := List.perm_middle
            have hamong : (key a').isAmong ((rest.take i).map key ++ key a :: seen) =
                (key a').isAmong (((a :: rest).take (i + 1)).map key ++ seen) := hperm.any_eq
            rwa [hamong] at hwhy

end

/-! ## Texts without bytes -/

/-- A text has bytes, unless one of its characters is a lone surrogate. -/
theorem encodeText_cases (t : Text) :
    ((∃ b, encodeText t = .ok b) ∧ ∀ c ∈ t, Text.IsScalar c) ∨
      (encodeText t = .error (.defect .unencodable) ∧ ∃ c ∈ t, ¬ Text.IsScalar c) := by
  by_cases hall : ∀ c ∈ t, Text.IsScalar c
  · obtain ⟨b, hb, -⟩ := encodeText_of_scalar hall
    exact Or.inl ⟨⟨b, hb⟩, hall⟩
  · have hnone : t.toUtf8? = none := by
      unfold Text.toUtf8?
      rw [if_neg]
      intro h
      exact hall fun c hc => of_decide_eq_true (List.all_eq_true.1 h c hc)
    refine Or.inr ⟨?_, by simpa using hall⟩
    unfold encodeText
    rw [hnone]

namespace TestCase

variable {t : TestCase}

/-- The customization is given as a text, and this holds a lone surrogate. -/
def BadCustomization (t : TestCase) : Prop :=
  t.hexCustomization = [] ∧ ∃ c ∈ t.customization, ¬ Text.IsScalar c

/-- The case without its function name. -/
def unnamed (t : TestCase) : TestCase := { t with functionName := [] }

/-- The customization holds a lone surrogate; or else the function name does, and the case could be
prepared without it. -/
def Unencodable (tgId : Number) (t : TestCase) : Prop :=
  t.BadCustomization ∨
    ((∃ c, t.unnamed.prepare tgId = .ok c) ∧ ∃ c ∈ t.functionName, ¬ Text.IsScalar c)

theorem customizationBytes_cases (tgId : Number) (t : TestCase) :
    ((∃ b, t.customizationBytes tgId = .ok b) ∧ ¬ t.BadCustomization) ∨
      ((∃ why, t.customizationBytes tgId = .error (.vector (.inCase tgId t.tcId why))) ∧
        ¬ t.BadCustomization) ∨
      (t.customizationBytes tgId = .error (.defect .unencodable) ∧ t.BadCustomization) := by
  unfold customizationBytes BadCustomization
  cases hc : t.customization with
  | nil =>
    have hgood : ¬ (t.hexCustomization = [] ∧ ∃ c ∈ ([] : Text), ¬ Text.IsScalar c) := by
      rintro ⟨-, c, hc, -⟩
      cases hc
    rcases hexBytes_spec tgId t.tcId .customization t.hexCustomization with
      ⟨b, hb, -⟩ | ⟨why, he, -⟩
    · exact Or.inl ⟨⟨b, hb⟩, hgood⟩
    · exact Or.inr (Or.inl ⟨⟨why, he⟩, hgood⟩)
  | cons c rest =>
    cases hh : t.hexCustomization with
    | cons d digits => exact Or.inr (Or.inl ⟨⟨.twoCustomizations, rfl⟩, fun h => nomatch h.1⟩)
    | nil =>
      rcases encodeText_cases (c :: rest) with ⟨⟨b, hb⟩, hall⟩ | ⟨he, hbad⟩
      · refine Or.inl ⟨⟨b, hb⟩, ?_⟩
        rintro ⟨-, c', hc', hno⟩
        exact hno (hall c' hc')
      · exact Or.inr (Or.inr ⟨he, rfl, hbad⟩)

/-- The function name is encoded after everything else. -/
theorem prepare_eq_bind (tgId : Number) (t : TestCase) :
    t.prepare tgId = t.unnamed.prepare tgId >>= fun c =>
      (encodeText t.functionName).map fun functionName => { c with functionName } := by
  unfold prepare unnamed
  show (t.customizationBytes tgId >>= _) = (t.customizationBytes tgId >>= _) >>= _
  cases t.customizationBytes tgId with
  | error e => rfl
  | ok customization =>
    cases hm : hexBytes tgId t.tcId .content t.msgHex with
    | error e => rfl
    | ok msg =>
      simp only [bind, Except.bind]
      cases Number.equal (.int msg.bitLength) t.bitLength with
      | false => rfl
      | true =>
        cases t.outLen.isWholeBytes with
        | false => rfl
        | true => cases encodeText t.functionName <;> rfl

/-- A case without a function name cannot be prepared for what it is told for, or because its
customization has no bytes. -/
theorem prepare_cases_of_unnamed (tgId : Number) (ht : t.functionName = []) :
    ((∃ c, t.prepare tgId = .ok c) ∧ ¬ t.BadCustomization) ∨
      ((∃ why, t.prepare tgId = .error (.vector (.inCase tgId t.tcId why))) ∧
        ¬ t.BadCustomization) ∨
      (t.prepare tgId = .error (.defect .unencodable) ∧ t.BadCustomization) := by
  unfold prepare
  rcases customizationBytes_cases tgId t with
    ⟨⟨customization, hc⟩, hgood⟩ | ⟨⟨why, he⟩, hgood⟩ | ⟨he, hbad⟩
  · rw [hc, ht]
    rcases hexBytes_spec tgId t.tcId .content t.msgHex with ⟨msg, hm, -⟩ | ⟨why, he, -⟩
    · rw [hm]
      simp only [bind, Except.bind]
      cases Number.equal (.int msg.bitLength) t.bitLength with
      | false => exact Or.inr (Or.inl ⟨⟨_, rfl⟩, hgood⟩)
      | true =>
        cases t.outLen.isWholeBytes with
        | false => exact Or.inr (Or.inl ⟨⟨_, rfl⟩, hgood⟩)
        | true => exact Or.inl ⟨⟨_, rfl⟩, hgood⟩
    · rw [he]
      exact Or.inr (Or.inl ⟨⟨why, rfl⟩, hgood⟩)
  · rw [he]
    exact Or.inr (Or.inl ⟨⟨why, rfl⟩, hgood⟩)
  · rw [he]
    exact Or.inr (Or.inr ⟨rfl, hbad⟩)

/-- A case that cannot be prepared is told, unless it holds a text without bytes. -/
theorem prepare_refused {tgId : Number} {e : Fault} (h : t.prepare tgId = .error e) :
    ((∃ why, e = .vector (.inCase tgId t.tcId why)) ∧ ¬ t.Unencodable tgId) ∨
      (e = .defect .unencodable ∧ t.Unencodable tgId) := by
  unfold Unencodable
  rw [prepare_eq_bind] at h
  have hcases := prepare_cases_of_unnamed (t := t.unnamed) tgId rfl
  rcases hcases with ⟨⟨c, hc⟩, hgood⟩ | ⟨⟨why, he⟩, hgood⟩ | ⟨he, hbad⟩
  · rw [hc] at h
    rcases encodeText_cases t.functionName with ⟨⟨b, hb⟩, -⟩ | ⟨he, hname⟩
    · rw [hb] at h
      cases h
    · rw [he] at h
      cases h
      exact Or.inr ⟨rfl, Or.inr ⟨⟨c, hc⟩, hname⟩⟩
  · rw [he] at h
    cases h
    refine Or.inl ⟨⟨why, rfl⟩, ?_⟩
    rintro (hbad | ⟨⟨c, hc⟩, -⟩)
    · exact hgood hbad
    · rw [he] at hc
      cases hc
  · rw [he] at h
    cases h
    exact Or.inr ⟨rfl, Or.inl hbad⟩

/-- The fault that a case is refused with, after cases with the identifiers seen: it tells the group
and the case, unless the case is new and holds a text without bytes. -/
structure Blamed (tgId : Number) (seen : List Number) (t : TestCase) (e : Fault) : Prop where
  told : t.tcId.isAmong seen = true ∨ ¬ t.Unencodable tgId →
    ∃ why, e = .vector why ∧ why.tgId? = some tgId ∧ why.tcId? = some t.tcId
  untold : t.tcId.isAmong seen = false → t.Unencodable tgId → e = .defect .unencodable

theorem blamed_of_repeated {tgId : Number} {seen : List Number}
    (h : t.tcId.isAmong seen = true) :
    t.Blamed tgId seen (.vector (.repeatedCase tgId t.tcId)) where
  told _ := ⟨_, rfl, rfl, rfl⟩
  untold hnew := by
    rw [h] at hnew
    cases hnew

theorem blamed_of_prepare {tgId : Number} {seen : List Number} {e : Fault}
    (hnew : t.tcId.isAmong seen = false) (h : t.prepare tgId = .error e) :
    t.Blamed tgId seen e := by
  rcases prepare_refused h with ⟨⟨why, rfl⟩, hgood⟩ | ⟨rfl, hbad⟩
  · exact ⟨fun _ => ⟨_, rfl, rfl, rfl⟩, fun _ hbad => absurd hbad hgood⟩
  · refine ⟨fun h => ?_, fun _ _ => rfl⟩
    rcases h with hold | hgood
    · rw [hnew] at hold
      cases hold
    · exact absurd hbad hgood

end TestCase

/-! ## Groups -/

namespace TestGroup

variable {g : TestGroup} {e : Fault}

/-- The group is refused whatever cases it has, and the fault tells the group only. -/
structure RefusedItself (g : TestGroup) (e : Fault) : Prop where
  always : ∀ k, (g.cut k).prepare = .error e
  told : ∃ why, e = .vector why ∧ why.tgId? = some g.tgId ∧ why.tcId? = none

/-- The group is refused from a case on, which is to blame. -/
def RefusedForCase (g : TestGroup) (e : Fault) : Prop :=
  ∃ j t, g.tests[j]? = some t ∧ RefusedFrom (fun k => (g.cut k).prepare) j e ∧
    t.Blamed g.tgId ((g.tests.take j).map TestCase.tcId) e

theorem bound_refused {tgId : Number} {name : Text} {o : Option Number}
    (h : bound tgId name o = .error e) : ∃ why, e = .vector (.group tgId why) := by
  unfold bound at h
  cases o with
  | none =>
    cases h
    exact ⟨_, rfl⟩
  | some n =>
    simp only at h
    split at h
    · cases h
    · cases h
      exact ⟨_, rfl⟩

theorem prepareBounds_refused {type : TestType} (h : g.prepareBounds type = .error e) :
    ∃ why, e = .vector (.group g.tgId why) := by
  cases type with
  | functional => cases h
  | monteCarlo =>
    unfold prepareBounds at h
    cases hmin : bound g.tgId "minOutLen" g.minOutLen with
    | error e' =>
      rw [hmin] at h
      cases h
      exact bound_refused hmin
    | ok least =>
      cases hmax : bound g.tgId "maxOutLen" g.maxOutLen with
      | error e' =>
        rw [hmin, hmax] at h
        cases h
        exact bound_refused hmax
      | ok greatest =>
        cases hinc : bound g.tgId "outLenIncrement" g.outLenIncrement with
        | error e' =>
          rw [hmin, hmax, hinc] at h
          cases h
          exact bound_refused hinc
        | ok increment =>
          rw [hmin, hmax, hinc] at h
          simp only [bind, Except.bind] at h
          split at h
          · cases h
            exact ⟨_, rfl⟩
          · cases h

/-- Cutting a group leaves its type and its bounds. -/
theorem prepare_cut {type : TestType} (htype : TestType.ofName? g.testType = some type) (k : Nat) :
    (g.cut k).prepare = g.prepareBounds type >>= fun bounds =>
      (TestCase.prepareAll g.tgId [] (g.tests.take k)).map fun cases =>
        { tgId := g.tgId, testType := type, cases, bounds } := by
  have hbounds : (g.cut k).prepareBounds type = g.prepareBounds type := rfl
  have htype' : TestType.ofName? (g.cut k).testType = some type := htype
  unfold prepare
  rw [htype']
  simp only [hbounds]
  cases g.prepareBounds type with
  | error e => rfl
  | ok bounds =>
    show TestCase.prepareAll g.tgId [] (g.tests.take k) >>= _ = Except.map _ _
    cases TestCase.prepareAll g.tgId [] (g.tests.take k) <;> rfl

theorem cut_length (g : TestGroup) : g.cut g.tests.length = g := by
  unfold cut
  rw [List.take_length]

/-- A group is prepared, or refused for what it is itself, or refused for its first bad case. -/
theorem prepare_cases (g : TestGroup) :
    (∃ p, g.prepare = .ok p) ∨
      ∃ e, g.prepare = .error e ∧ (g.RefusedItself e ∨ g.RefusedForCase e) := by
  have hwhole : ∀ {e : Fault}, (∀ k, (g.cut k).prepare = .error e) → g.prepare = .error e := by
    intro e h
    rw [← cut_length g]
    exact h _
  cases htype : TestType.ofName? g.testType with
  | none =>
    have hall : ∀ k, (g.cut k).prepare =
        .error (.vector (.group g.tgId (.unknownType g.testType))) := by
      intro k
      have htype' : TestType.ofName? (g.cut k).testType = none := htype
      unfold prepare
      rw [htype']
      rfl
    exact Or.inr ⟨_, hwhole hall, Or.inl ⟨hall, _, rfl, rfl, rfl⟩⟩
  | some type =>
    cases hb : g.prepareBounds type with
    | error e =>
      have hall : ∀ k, (g.cut k).prepare = .error e := by
        intro k
        rw [prepare_cut htype, hb]
        rfl
      obtain ⟨why, rfl⟩ := prepareBounds_refused hb
      exact Or.inr ⟨_, hwhole hall, Or.inl ⟨hall, _, rfl, rfl, rfl⟩⟩
    | ok bounds =>
      have hcut : ∀ k, (g.cut k).prepare = (prepareDistinct TestCase.tcId
          (fun t => .vector (.repeatedCase g.tgId t.tcId)) (TestCase.prepare g.tgId) []
          (g.tests.take k)).map fun cases =>
            { tgId := g.tgId, testType := type, cases, bounds } := by
        intro k
        rw [prepare_cut htype, hb, TestCase.prepareAll_eq]
        rfl
      rcases prepareDistinct_refused TestCase.tcId (fun t => .vector (.repeatedCase g.tgId t.tcId))
        (TestCase.prepare g.tgId) [] g.tests with
        ⟨cases, hcases⟩ | ⟨j, t, e, hj, hfrom, hwhy⟩
      · refine Or.inl ⟨{ tgId := g.tgId, testType := type, cases, bounds }, ?_⟩
        rw [← cut_length g, hcut, List.take_length, hcases]
        rfl
      · rw [List.append_nil] at hwhy
        have hfrom' := hfrom.map _ hcut
        have hblamed : t.Blamed g.tgId ((g.tests.take j).map TestCase.tcId) e := by
          rcases hwhy with ⟨hold, rfl⟩ | ⟨hnew, he⟩
          · exact TestCase.blamed_of_repeated hold
          · exact TestCase.blamed_of_prepare hnew he
        refine Or.inr ⟨e, ?_, Or.inr ⟨j, t, hj, hfrom', hblamed⟩⟩
        rw [← cut_length g]
        exact hfrom'.after _ (List.getElem?_eq_some_iff.1 hj).1

end TestGroup

/-! ## Top theorem -/

/-- A vector set of any numbers and texts is prepared, or refused from a group on. The fault is that
of the group and tells it: alone if it repeats an identifier or is refused whatever cases it has,
and else with the case from which on it is refused. The one exception is a case that is new and
holds a text with a lone surrogate where it is encoded; then the fault tells neither. -/
theorem VectorSet.prepare_refuses (vs : VectorSet) :
    (∃ groups, vs.prepare = .ok groups) ∨
    ∃ i g e, vs.groups[i]? = some g ∧ vs.prepare = .error e ∧
      RefusedFrom (fun k => (vs.cut k).prepare) i e ∧
      ((g.tgId.isAmong ((vs.groups.take i).map TestGroup.tgId) = true ∧
          e = .vector (.repeatedGroup g.tgId)) ∨
        (g.tgId.isAmong ((vs.groups.take i).map TestGroup.tgId) = false ∧
          (g.RefusedItself e ∨ g.RefusedForCase e))) := by
  have hcut : ∀ k, (vs.cut k).prepare = prepareDistinct TestGroup.tgId
      (fun g => .vector (.repeatedGroup g.tgId)) TestGroup.prepare [] (vs.groups.take k) :=
    fun k => TestGroup.prepareAll_eq
  have hwhole : vs.prepare = prepareDistinct TestGroup.tgId
      (fun g => .vector (.repeatedGroup g.tgId)) TestGroup.prepare [] vs.groups :=
    TestGroup.prepareAll_eq
  rcases prepareDistinct_refused TestGroup.tgId (fun g => .vector (.repeatedGroup g.tgId))
    TestGroup.prepare [] vs.groups with ⟨groups, hgroups⟩ | ⟨i, g, e, hi, hfrom, hwhy⟩
  · exact Or.inl ⟨groups, hwhole.trans hgroups⟩
  · rw [List.append_nil] at hwhy
    have hrefused : vs.prepare = .error e := by
      rw [hwhole, ← List.take_length (l := vs.groups)]
      exact hfrom.after _ (List.getElem?_eq_some_iff.1 hi).1
    refine Or.inr ⟨i, g, e, hi, hrefused, ?_, ?_⟩
    · simp only [hcut]
      exact hfrom
    · rcases hwhy with ⟨hold, rfl⟩ | ⟨hnew, he⟩
      · exact Or.inl ⟨hold, rfl⟩
      · refine Or.inr ⟨hnew, ?_⟩
        rcases g.prepare_cases with ⟨p, hp⟩ | ⟨e', he', hwhy⟩
        · rw [he] at hp
          cases hp
        · rw [he] at he'
          cases he'
          exact hwhy

/-- A case whose function name is a lone surrogate. -/
def TestCase.surrogate : TestCase :=
  { tcId := .int 1, msgHex := [], bitLength := .int 0, functionName := [0xD800] }

/-- A document of that case is read, and what it is refused with tells neither the group nor the
case. -/
theorem VectorSet.surrogate_untold :
    let d : Document := .text
      ("\x7b\"testGroups\":[\x7b\"tgId\":1,\"testType\":\"AFT\",\"tests\":[" ++
        "\x7b\"tcId\":1,\"msg\":\"\",\"len\":0,\"functionName\":\"\\ud800\"\x7d]\x7d]\x7d")
    let vs : VectorSet :=
      { groups := [{ tgId := .int 1, testType := "AFT", tests := [.surrogate] }] }
    (ofDocument d).toOption = some vs ∧ vs.prepare = .error (.defect .unencodable) := by
  intro d vs
  exact ⟨by decide +kernel, rfl⟩

end XofConformance
