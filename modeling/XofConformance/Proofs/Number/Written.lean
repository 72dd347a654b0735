import XofConformance.Proofs.Json.Reading
import XofConformance.Proofs.Bytes.Hex
import XofConformance.Number.Basic

/-!
# Written numbers

Whatever a number is, its text is of digits, points, signs and letters, all of them plain code
points (`isPlain_of_mem_text`).
-/

namespace XofConformance

variable {c : CodePoint} {digits : Text} {i : Int} {n : Nat}

namespace Text

theorem isPlain_of_isDigit (hc : isDigit c = true) : IsPlain c := by
  rw [isDigit, Bool.and_eq_true, decide_eq_true_iff, decide_eq_true_iff] at hc
  exact ⟨Nat.le_trans (by decide) hc.1, Nat.le_trans hc.2 (by decide)⟩

theorem isPlain_of_mem_ofNat (hc : c ∈ ofNat n) : IsPlain c :=
  isPlain_of_isDigit (isDigit_of_mem_ofNat hc)

theorem isPlain_of_mem_ofInt (hc : c ∈ ofInt i) : IsPlain c := by
  cases i with
  | ofNat n => exact isPlain_of_mem_ofNat hc
  | negSucc n =>
    rcases List.mem_cons.1 hc with rfl | hc
    · decide
    · exact isPlain_of_mem_ofNat hc

theorem isPlain_of_mem_zeros (hc : c ∈ List.replicate n 0x30) : IsPlain c := by
  rw [List.eq_of_mem_replicate hc]
  decide

theorem forall_mem_concat {P : CodePoint → Prop} {parts : List Text}
    (h : ∀ t ∈ parts, ∀ c ∈ t, P c) : ∀ c ∈ concat parts, P c := by
  intro c hc
  obtain ⟨t, ht, hc⟩ := List.mem_flatten.1 hc
  exact h t ht c hc

theorem mem_of_mem_dropEndWhile {p : CodePoint → Bool} {t : Text} (hc : c ∈ dropEndWhile p t) :
    c ∈ t :=
  List.mem_reverse.1 ((List.dropWhile_sublist p).subset (List.mem_reverse.1 hc))

end Text

namespace Binary64

variable {exponent point : Int}

theorem isPlain_of_mem_positional (hdigits : ∀ c ∈ digits, Text.IsPlain c)
    (hc : c ∈ positional digits point) : Text.IsPlain c := by
  have hpoint : ∀ w ∈ (["0.", ".0", "."] : List Text), ∀ c ∈ w, Text.IsPlain c := by decide
  simp only [List.forall_mem_cons] at hpoint
  obtain ⟨hlow, hhigh, hmiddle, -⟩ := hpoint
  have hzeros : ∀ n, ∀ c ∈ List.replicate n 0x30, Text.IsPlain c := fun n c =>
    Text.isPlain_of_mem_zeros
  unfold positional at hc
  split at hc
  · refine Text.forall_mem_concat ?_ c hc
    simp only [List.forall_mem_cons]
    exact ⟨hlow, hzeros _, hdigits, nofun⟩
  split at hc
  · refine Text.forall_mem_concat ?_ c hc
    simp only [List.forall_mem_cons]
    exact ⟨hdigits, hzeros _, hhigh, nofun⟩
  · refine Text.forall_mem_concat ?_ c hc
    simp only [List.forall_mem_cons]
    exact ⟨fun c hc => hdigits c (List.mem_of_mem_take hc), hmiddle,
      fun c hc => hdigits c (List.mem_of_mem_drop hc), nofun⟩

theorem isPlain_of_mem_scientific (hdigits : ∀ c ∈ digits, Text.IsPlain c)
    (hc : c ∈ scientific digits exponent) : Text.IsPlain c := by
  have hsize : ∀ c ∈ Text.ofNat exponent.natAbs, Text.IsPlain c := fun c =>
    Text.isPlain_of_mem_ofNat
  refine Text.forall_mem_concat ?_ c hc
  simp only [List.forall_mem_cons]
  refine ⟨fun c hc => hdigits c (List.mem_of_mem_take hc), ?_, ?_, ?_, nofun⟩
  · split
    · exact nofun
    · exact List.forall_mem_cons.2 ⟨by decide, fun c hc => hdigits c (List.mem_of_mem_drop hc)⟩
  · split <;> decide
  · split
    · exact List.forall_mem_cons.2 ⟨by decide, hsize⟩
    · exact hsize

theorem isPlain_of_mem_layout {p : Prop} [Decidable p] (hdigits : ∀ c ∈ digits, Text.IsPlain c)
    (hc : c ∈ if p then positional digits point else scientific digits exponent) :
    Text.IsPlain c := by
  split at hc
  · exact isPlain_of_mem_positional hdigits hc
  · exact isPlain_of_mem_scientific hdigits hc

theorem Decimal.isPlain_of_mem_text {layout : Layout} {d : Decimal} (hc : c ∈ d.text layout) :
    Text.IsPlain c := by
  have hdigits : ∀ c ∈ Text.dropEndWhile (· == 0x30) (Text.ofNat d.digits), Text.IsPlain c :=
    fun c hc => Text.isPlain_of_mem_ofNat (Text.mem_of_mem_dropEndWhile hc)
  unfold Decimal.text at hc
  cases hdrop : Text.dropEndWhile (· == 0x30) (Text.ofNat d.digits) with
  | nil =>
    simp only [hdrop] at hc
    exact isPlain_of_mem_layout (by decide) hc
  | cons digit digits =>
    rw [hdrop] at hdigits
    simp only [hdrop] at hc
    exact isPlain_of_mem_layout hdigits hc

theorem isPlain_of_mem_text {x : Binary64} (hc : c ∈ x.text) : Text.IsPlain c := by
  have hwords : ∀ w ∈ (["nan", "-inf", "inf", "-0.0", "0.0"] : List Text), ∀ c ∈ w,
      Text.IsPlain c := by decide
  unfold text at hc
  split at hc
  · exact hwords _ (by decide) c hc
  · split at hc <;> exact hwords _ (by decide) c hc
  · exact hwords _ (by decide) c hc
  · exact hwords _ (by decide) c hc
  · have hsign : ∀ b : Bool, ∀ c ∈ (if b then "-" else "" : Text), Text.IsPlain c := by decide
    refine Text.forall_mem_concat ?_ c hc
    simp only [List.forall_mem_cons]
    exact ⟨hsign _, fun c hc => Decimal.isPlain_of_mem_text hc, nofun⟩

end Binary64

/-- A number is written in plain code points. -/
theorem Number.isPlain_of_mem_text {n : Number} (hc : c ∈ n.text) : Text.IsPlain c := by
  cases n with
  | int i => exact Text.isPlain_of_mem_ofInt hc
  | float x => exact Binary64.isPlain_of_mem_text hc

end XofConformance
