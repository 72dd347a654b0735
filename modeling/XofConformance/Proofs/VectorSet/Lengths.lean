import XofConformance.Proofs.Number.Integral
import XofConformance.Proofs.Prepared.Validation
import XofConformance.Proofs.VectorSet.Shape

/-!
# The lengths of a document

The shape of a vector set lets a length pass if it is worth an integer that fits into a word, in
whichever form it is written. So all lengths of a vector set that a document holds are such.

    ofDocument d = .ok vs ↔ d opens to a body that has the shape and vs is made of
                                                                (ofDocument_eq_ok_iff)
    ofDocument d = .ok vs → ∀ g ∈ vs.groups, g.EveryLength Number.FitsWord
                                                            (everyLength_of_ofDocument)
-/

namespace XofConformance

/-! ## Shapes -/

namespace Shape

/-- What has the shape of an integer between bounds is a number worth one. -/
theorem fits_integer_iff {v : Json} {least greatest : Option Nat} :
    (value .integer least greatest).Fits v ↔ ∃ n k, v = .number n ∧ n.IsWorth k ∧
      (∀ l ∈ least, (l : Int) ≤ k) ∧ ∀ g ∈ greatest, k ≤ (g : Int) := by
  have hbelow : ∀ {n : Number} {k : Int}, n.IsWorth k → ∀ l : Nat,
      n.lt (.int l) = false ↔ (l : Int) ≤ k := by
    intro n k hk l
    rw [← Bool.not_eq_true, hk.lt_iff (Number.isWorth_int l), Int.not_lt]
  have habove : ∀ {n : Number} {k : Int}, n.IsWorth k → ∀ g : Nat,
      Number.lt (.int g) n = false ↔ k ≤ (g : Int) := by
    intro n k hk g
    rw [← Bool.not_eq_true, (Number.isWorth_int g).lt_iff hk, Int.not_lt]
  rw [Fits]
  constructor
  · rintro ⟨hkind, hbounds⟩
    cases v with
    | number n =>
      obtain ⟨k, hk⟩ := Number.isIntegral_iff.1 (show n.isIntegral = true from hkind)
      obtain ⟨hlow, hhigh⟩ := hbounds n rfl
      exact ⟨n, k, rfl, hk, fun l hl => (hbelow hk l).1 (hlow l hl),
        fun g hg => (habove hk g).1 (hhigh g hg)⟩
    | _ => cases hkind
  · rintro ⟨n, k, rfl, hk, hlow, hhigh⟩
    refine ⟨Number.isIntegral_iff.2 ⟨k, hk⟩, fun m hm => ?_⟩
    cases hm
    exact ⟨fun l hl => (hbelow hk l).2 (hlow l hl), fun g hg => (habove hk g).2 (hhigh g hg)⟩

/-- What has the shape of a word is a number that fits into one. -/
theorem fits_word_iff {v : Json} : word.Fits v ↔ ∃ n, v = .number n ∧ n.FitsWord := by
  have hmax : ((0xFFFFFFFF : Nat) : Int) = (Bytes.maxWord : Int) := rfl
  unfold word
  rw [fits_integer_iff]
  constructor
  · rintro ⟨n, k, rfl, hk, hlow, hhigh⟩
    have hzero := hlow 0 rfl
    have hword := hhigh 0xFFFFFFFF rfl
    obtain ⟨j, rfl⟩ := Int.eq_ofNat_of_zero_le (show 0 ≤ k by omega)
    exact ⟨n, rfl, j, by omega, hk⟩
  · rintro ⟨n, rfl, k, hword, hk⟩
    refine ⟨n, k, rfl, hk, fun l hl => ?_, fun g hg => ?_⟩
    · obtain rfl := Option.some.inj hl
      omega
    · obtain rfl := Option.some.inj hg
      omega

theorem Fits.numberField? {v : Json} {key : Text} {required : List Text}
    {fields : List (Text × Shape)} (h : (record required fields).Fits v)
    (hkey : (key, word) ∈ fields) {n : Number} (hn : v.numberField? key = some n) :
    n.FitsWord := by
  obtain ⟨w, hw, hwn⟩ := Option.bind_eq_some_iff.1 hn
  obtain ⟨m, rfl, hm⟩ := fits_word_iff.1 (h.field? hkey hw)
  cases hwn
  exact hm

end Shape

/-! ## Records -/

theorem TestCase.fitsWord_ofJson {v : Json} (h : Shape.testCase.Fits v) :
    (ofJson v).outLen.FitsWord := by
  show ((v.numberField? "outLen").getD (.int 0)).FitsWord
  cases hn : v.numberField? "outLen" with
  | none => exact Number.fitsWord_zero
  | some n =>
    exact Shape.Fits.numberField? h (by simp) hn

theorem TestGroup.everyLength_ofJson {v : Json} (h : Shape.testGroup.Fits v) :
    (ofJson v).EveryLength Number.FitsWord := by
  refine ⟨fun t ht => ?_, fun _ => ⟨fun n hn => ?_, fun n hn => ?_, fun n hn => ?_⟩⟩
  · obtain ⟨w, hw, rfl⟩ := List.mem_map.1 ht
    exact TestCase.fitsWord_ofJson (Shape.Fits.itemsField h (by simp) hw)
  · exact Shape.Fits.numberField? h (by simp) hn
  · exact Shape.Fits.numberField? h (by simp) hn
  · exact Shape.Fits.numberField? h (by simp) hn

/-! ## Documents -/

namespace VectorSet

variable {d : Document} {vs : VectorSet}

/-- A document is read if it opens to a body of the shape of a vector set. -/
theorem ofDocument_eq_ok_iff : ofDocument d = .ok vs ↔ ∃ v body version, d.load = .ok v ∧
    Envelope.unwrap v = .ok (body, version) ∧ Shape.vectorSet.Fits body ∧
      vs = ofBody body version := by
  constructor
  · intro h
    obtain ⟨v, hload, h⟩ := exists_of_bind_eq_ok h
    obtain ⟨⟨body, version⟩, hunwrap, h⟩ := exists_of_bind_eq_ok h
    dsimp only at h
    split at h
    · next hcheck =>
      cases h
      exact ⟨v, body, version, hload, hunwrap, Shape.check_eq_nil_iff.1 hcheck, rfl⟩
    · cases h
  · rintro ⟨v, body, version, hload, hunwrap, hfits, rfl⟩
    have hcheck := Shape.check_eq_nil_iff.2 hfits
    simp only [ofDocument, hload, hunwrap, hcheck, bind, Except.bind, pure, Except.pure]

/-- The lengths of a document that is read fit into words. -/
theorem everyLength_of_ofDocument (h : ofDocument d = .ok vs) :
    ∀ g ∈ vs.groups, g.EveryLength Number.FitsWord := by
  obtain ⟨-, body, version, -, -, hfits, rfl⟩ := ofDocument_eq_ok_iff.1 h
  intro g hg
  obtain ⟨v, hv, rfl⟩ := List.mem_map.1 hg
  exact TestGroup.everyLength_ofJson (Shape.Fits.itemsField hfits (by simp) hv)

end VectorSet

end XofConformance
