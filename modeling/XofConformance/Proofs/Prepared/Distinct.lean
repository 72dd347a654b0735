import XofConformance.Prepared.Validation
import XofConformance.Proofs.Lists
import XofConformance.Proofs.Number.Words

/-!
# Items with distinct keys

Cases are prepared one after the other, and so are groups: an item is refused if its key was seen
before, or if it cannot be prepared itself. So either all items are good and have distinct keys, or
the first item that spoils this is to blame.

    prepareDistinct … [] as = .ok bs, and all is well, or it is refused for the first item
    with which it is not                                          (prepareDistinct_spec)
-/

namespace XofConformance

/-! ## Integers -/

/-- The number is an integer, of any size and sign. -/
def Number.IsInt (n : Number) : Prop := ∃ k : Int, n = .int k

/-- An integer was seen if and only if it is among the integers seen. -/
theorem Number.isAmong_iff {n : Number} {seen : List Number} (hn : n.IsInt)
    (hseen : ∀ k ∈ seen, k.IsInt) : n.isAmong seen = true ↔ n ∈ seen := by
  obtain ⟨a, rfl⟩ := hn
  unfold isAmong
  rw [List.any_eq_true]
  constructor
  · rintro ⟨k, hk, he⟩
    obtain ⟨b, rfl⟩ := hseen k hk
    obtain rfl := equal_int.1 he
    exact hk
  · intro h
    exact ⟨.int a, h, equal_int.2 rfl⟩

/-! ## Items -/

/-- Every item is good, and no two have the same key. -/
structure EachOnce {α κ : Type} (key : α → κ) (Good : α → Prop) (as : List α) : Prop where
  distinct : (as.map key).Nodup
  good : ∀ a ∈ as, Good a

section

variable {α κ : Type} {key : α → κ} {Good : α → Prop} {as : List α} {a : α} {i : Nat}

theorem EachOnce.take (h : EachOnce key Good as) (n : Nat) : EachOnce key Good (as.take n) :=
  ⟨h.distinct.sublist ((List.take_sublist n as).map key),
    fun a ha => h.good a (List.mem_of_mem_take ha)⟩

/-- An item that spoils what is well before it. -/
theorem not_eachOnce_take (hi : as[i]? = some a)
    (h : key a ∈ (as.take i).map key ∨ ¬ Good a) : ¬ EachOnce key Good (as.take (i + 1)) := by
  rw [List.take_add_one, hi]
  rintro ⟨hdistinct, hgood⟩
  rcases h with hm | hbad
  · rw [List.map_append, List.nodup_append] at hdistinct
    exact hdistinct.2.2 _ hm _ (List.mem_singleton_self _) rfl
  · exact hbad (hgood a (List.mem_append_right _ (List.mem_singleton_self _)))

end

/-! ## Algorithm -/

/-- Prepares items, of which no two may have the same key. -/
def prepareDistinct {α β : Type} (key : α → Number) (repeated : α → Fault)
    (prepare : α → Except Fault β) : List Number → List α → Except Fault (List β)
  | _, [] => .ok []
  | seen, a :: rest =>
    if (key a).isAmong seen then .error (repeated a)
    else do
      let b ← prepare a
      return b :: (← prepareDistinct key repeated prepare (key a :: seen) rest)

theorem TestCase.prepareAll_eq {tgId : Number} {seen : List Number} {tests : List TestCase} :
    prepareAll tgId seen tests = prepareDistinct TestCase.tcId
      (fun t => .vector (.repeatedCase tgId t.tcId)) (prepare tgId) seen tests := by
  induction tests generalizing seen with
  | nil => rfl
  | cons t rest ih =>
    unfold prepareAll prepareDistinct
    rw [ih]
    cases t.tcId.isAmong seen <;> rfl

theorem TestGroup.prepareAll_eq {seen : List Number} {groups : List TestGroup} :
    prepareAll seen groups = prepareDistinct TestGroup.tgId
      (fun g => .vector (.repeatedGroup g.tgId)) prepare seen groups := by
  induction groups generalizing seen with
  | nil => rfl
  | cons g rest ih =>
    unfold prepareAll prepareDistinct
    rw [ih]
    cases g.tgId.isAmong seen <;> rfl

/-! ## What it comes to -/

section

variable {α β : Type} {key : α → Number} (repeated : α → Fault) {prepare : α → Except Fault β}
  {Good : α → β → Prop} {Bad : α → Fault → Prop}

/-- The items go on being good and having keys that were not seen; or there is a first item that has
a key seen before, or cannot be prepared. -/
theorem prepareDistinct_seen {seen : List Number} {as : List α} (hseen : ∀ k ∈ seen, k.IsInt)
    (hkey : ∀ a ∈ as, (key a).IsInt)
    (hprepare : ∀ a ∈ as, (∃ b, prepare a = .ok b ∧ Good a b) ∨ ∃ e, prepare a = .error e ∧ Bad a e)
    (hnodup : seen.Nodup) :
    (∃ bs, prepareDistinct key repeated prepare seen as = .ok bs ∧ List.Forall₂ Good as bs ∧
      (as.map key ++ seen).Nodup) ∨
    ∃ i a e, as[i]? = some a ∧ prepareDistinct key repeated prepare seen as = .error e ∧
      (∀ a' ∈ as.take i, ∃ b, Good a' b) ∧ ((as.take i).map key ++ seen).Nodup ∧
      ((key a ∈ (as.take i).map key ++ seen ∧ e = repeated a) ∨
        key a ∉ (as.take i).map key ++ seen ∧ Bad a e) := by
  induction as generalizing seen with
  | nil => exact Or.inl ⟨[], rfl, .nil, hnodup⟩
  | cons a rest ih =>
    have ha := hkey a List.mem_cons_self
    unfold prepareDistinct
    by_cases hm : key a ∈ seen
    · rw [if_pos ((Number.isAmong_iff ha hseen).2 hm)]
      exact Or.inr ⟨0, a, _, rfl, rfl, nofun, hnodup, Or.inl ⟨hm, rfl⟩⟩
    rw [if_neg (mt (Number.isAmong_iff ha hseen).1 hm)]
    rcases hprepare a List.mem_cons_self with ⟨b, hb, hgood⟩ | ⟨e, he, hbad⟩
    case inr =>
      rw [he]
      exact Or.inr ⟨0, a, e, rfl, rfl, nofun, hnodup, Or.inr ⟨hm, hbad⟩⟩
    rw [hb]
    have hseen' : ∀ k ∈ key a :: seen, k.IsInt := by
      intro k hk
      rcases List.mem_cons.1 hk with rfl | hk
      · exact ha
      · exact hseen k hk
    rcases ih hseen' (fun a' h => hkey a' (List.mem_cons_of_mem _ h))
      (fun a' h => hprepare a' (List.mem_cons_of_mem _ h)) (List.nodup_cons.2 ⟨hm, hnodup⟩) with
      ⟨bs, hbs, hall, hd⟩ | ⟨i, a', e, hi, he, hall, hd, hwhy⟩
    · refine Or.inl ⟨b :: bs, ?_, .cons hgood hall, List.perm_middle.nodup_iff.1 hd⟩
      rw [hbs]
      rfl
    · refine Or.inr ⟨i + 1, a', e, hi, ?_, fun a'' h => ?_, List.perm_middle.nodup_iff.1 hd, ?_⟩
      · rw [he]
        rfl
      · rcases List.mem_cons.1 h with rfl | h
        · exact ⟨b, hgood⟩
        · exact hall a'' h
      · -- the key of the first item is among the keys seen, or among those of the items before
        have hperm : key a' ∈ (rest.take i).map key ++ key a :: seen ↔
            key a' ∈ ((a :: rest).take (i + 1)).map key ++ seen :=
          List.perm_middle.mem_iff
        rwa [hperm] at hwhy

/-- All items are good and have distinct keys; or the first item with which they are not is to
blame, for its key if that is repeated, else for what is wrong with itself. -/
theorem prepareDistinct_spec {as : List α} {Fine : α → Prop} (hkey : ∀ a ∈ as, (key a).IsInt)
    (hprepare : ∀ a ∈ as, (∃ b, prepare a = .ok b ∧ Fine a ∧ Good a b) ∨
      ∃ e, prepare a = .error e ∧ ¬ Fine a ∧ Bad a e) :
    (∃ bs, prepareDistinct key repeated prepare [] as = .ok bs ∧ EachOnce key Fine as ∧
      List.Forall₂ Good as bs) ∨
    ∃ i a e, as[i]? = some a ∧ prepareDistinct key repeated prepare [] as = .error e ∧
      EachOnce key Fine (as.take i) ∧ ¬ EachOnce key Fine (as.take (i + 1)) ∧
      ((key a ∈ (as.take i).map key ∧ e = repeated a) ∨
        key a ∉ (as.take i).map key ∧ ¬ Fine a ∧ Bad a e) := by
  have hnone : ∀ k ∈ ([] : List Number), k.IsInt := fun k hk => absurd hk List.not_mem_nil
  rcases prepareDistinct_seen repeated hnone hkey hprepare List.nodup_nil with
    ⟨bs, hbs, hall, hd⟩ | ⟨i, a, e, hi, he, hall, hd, hwhy⟩
  · rw [List.append_nil] at hd
    refine Or.inl ⟨bs, hbs, ⟨hd, fun a ha => ?_⟩, hall.imp fun _ _ h => h.2⟩
    obtain ⟨b, -, hfine, -⟩ := exists_right_of_forall₂ hall ha
    exact hfine
  · rw [List.append_nil] at hd hwhy
    refine Or.inr ⟨i, a, e, hi, he, ⟨hd, fun a' h => ?_⟩, not_eachOnce_take hi ?_, hwhy⟩
    · obtain ⟨b, hfine, -⟩ := hall a' h
      exact hfine
    · rcases hwhy with ⟨hm, -⟩ | ⟨-, hbad, -⟩
      · exact Or.inl hm
      · exact Or.inr hbad

/-- Items that were prepared have distinct keys, and each of them can be prepared. -/
theorem eachOnce_of_prepareDistinct {as : List α} {bs : List β} (hkey : ∀ a ∈ as, (key a).IsInt)
    (h : prepareDistinct key repeated prepare [] as = .ok bs) :
    EachOnce key (fun a => ∃ b, prepare a = .ok b) as := by
  have hprepare : ∀ a ∈ as, (∃ b, prepare a = .ok b ∧ (∃ b, prepare a = .ok b) ∧ True) ∨
      ∃ e, prepare a = .error e ∧ (¬ ∃ b, prepare a = .ok b) ∧ True := by
    intro a _
    cases ha : prepare a with
    | ok b => exact Or.inl ⟨b, rfl, ⟨b, rfl⟩, trivial⟩
    | error e => exact Or.inr ⟨e, rfl, by rintro ⟨b, ⟨⟩⟩, trivial⟩
  rcases prepareDistinct_spec repeated hkey hprepare with ⟨_, -, hall, -⟩ | ⟨_, _, _, -, he, -⟩
  · exact hall
  · rw [h] at he
    cases he

end

/-! ## Vector sets -/

/-- The identifiers of a vector set. -/
def VectorSet.identifiers (vs : VectorSet) : List Number :=
  vs.vsId.toList ++ vs.groups.flatMap fun g => g.tgId :: g.tests.map (·.tcId)

section

variable {vs : VectorSet}

theorem VectorSet.isInt_vsId (h : ∀ n ∈ vs.identifiers, n.IsInt) : ∀ n ∈ vs.vsId, n.IsInt :=
  fun n hn => h n (List.mem_append_left _ (Option.mem_toList.2 hn))

theorem VectorSet.isInt_tgId (h : ∀ n ∈ vs.identifiers, n.IsInt) :
    ∀ g ∈ vs.groups, g.tgId.IsInt := fun g hg =>
  h _ (List.mem_append_right _ (List.mem_flatMap.2 ⟨g, hg, List.mem_cons_self⟩))

theorem VectorSet.isInt_tcId (h : ∀ n ∈ vs.identifiers, n.IsInt) :
    ∀ g ∈ vs.groups, ∀ t ∈ g.tests, t.tcId.IsInt := fun g hg t ht =>
  h _ (List.mem_append_right _ (List.mem_flatMap.2
    ⟨g, hg, List.mem_cons_of_mem _ (List.mem_map.2 ⟨t, ht, rfl⟩)⟩))

/-- In a vector set that was prepared, no two groups have the same identifier, and no two tests of a
group. -/
theorem VectorSet.nodup_of_prepare (hids : ∀ n ∈ vs.identifiers, n.IsInt)
    {groups : List PreparedGroup} (h : vs.prepare = .ok groups) :
    (vs.groups.map (·.tgId)).Nodup ∧ ∀ g ∈ vs.groups, (g.tests.map (·.tcId)).Nodup := by
  unfold VectorSet.prepare at h
  rw [TestGroup.prepareAll_eq] at h
  have hgroups := eachOnce_of_prepareDistinct _ (isInt_tgId hids) h
  refine ⟨hgroups.distinct, fun g hg => ?_⟩
  obtain ⟨p, hp⟩ := hgroups.good g hg
  unfold TestGroup.prepare at hp
  split at hp
  · cases hp
  · obtain ⟨bounds, -, hp⟩ := exists_of_bind_eq_ok hp
    obtain ⟨cases, hcases, -⟩ := exists_of_bind_eq_ok hp
    rw [TestCase.prepareAll_eq] at hcases
    exact (eachOnce_of_prepareDistinct _ (isInt_tcId hids g hg) hcases).distinct

end

end XofConformance
