import XofConformance.Proofs.Bytes.Hex
import XofConformance.Proofs.Comparison.Lacking

/-!
# Digests in either case

Lowering reaches far beyond ASCII, but no letter outside ASCII has a small form among the digits
and the letters from `a` to `f`. So a text comes out as the digits of a byte string only if it
spells the byte string, and digests that are equal without regard to case are the same bytes.

    Text.lower t = b.toHex ↔ decodeHex t = .ok b                         (lower_eq_toHex_iff)
-/

namespace XofConformance

/-! ## Lowering -/

namespace Text

/-- The code point is a hexadecimal digit, and none in upper case. -/
def IsLowerHex (c : CodePoint) : Prop := (0x30 ≤ c ∧ c ≤ 0x39) ∨ (0x61 ≤ c ∧ c ≤ 0x66)

instance (c : CodePoint) : Decidable (IsLowerHex c) := inferInstanceAs (Decidable (_ ∨ _))

variable {c d : Nat} {t u : Text}

theorem isLowerHex_hexDigit : ∀ n, n < 16 → IsLowerHex (hexDigit n) := by decide

theorem isLowerHex_iff : IsLowerHex c ↔ (48 ≤ c ∧ c ≤ 57) ∨ (97 ≤ c ∧ c ≤ 102) := Iff.rfl

/-- Every run of capital letters beyond ASCII begins with a small form behind the letter `f`. -/
theorem lt_image_of_mem_loweringRuns :
    ∀ r ∈ loweringRuns, 0x80 ≤ r.2.1 → (0x66 : Int) < r.1 + r.2.2.2 := by decide +kernel

theorem lt_lowerSimple (h : 0x80 ≤ c) : 0x66 < lowerSimple c := by
  unfold lowerSimple
  rw [if_neg (Nat.not_lt.2 h)]
  split
  · next first last step distance hfind =>
    have hmem := List.mem_of_find?_eq_some hfind
    have hrun := List.find?_some hfind
    simp only [Bool.and_eq_true, decide_eq_true_eq] at hrun
    have himage : (0x66 : Int) < first + distance :=
      lt_image_of_mem_loweringRuns _ hmem (Nat.le_trans h hrun.1.2)
    have hfirst : first ≤ c := hrun.1.1
    show 0x66 < ((c : Int) + distance).toNat
    omega
  · exact Nat.lt_of_lt_of_le (by decide) h

/-- The simple image of a code point is a small digit exactly if the code point is that digit in
either case. -/
theorem lowerSimple_eq_iff (hd : IsLowerHex d) : lowerSimple c = d ↔ Bytes.lowerDigit c = d := by
  rw [isLowerHex_iff] at hd
  show @Eq Nat _ d ↔ @Eq Nat (if 65 ≤ c ∧ c ≤ 70 then c + 32 else c) d
  by_cases hc : c < 0x80
  · have hsimple : lowerSimple c = (if 65 ≤ c ∧ c ≤ 90 then c + 32 else c : Nat) := if_pos hc
    rw [hsimple]
    split <;> split <;> omega
  · have hlt : @LT.lt Nat _ 102 (lowerSimple c) := lt_lowerSimple (Nat.not_lt.1 hc)
    refine iff_of_false ?_ ?_
    · omega
    · split <;> omega

/-- A code point comes out as a small digit in front of a text exactly if it is that digit in either
case; the capitals with images of their own never do. -/
theorem lowerAt_append_eq_iff {behind ahead rest : Text} (hd : IsLowerHex d) :
    lowerAt behind c ahead ++ rest = d :: u ↔ Bytes.lowerDigit c = d ∧ rest = u := by
  by_cases hdotted : c = 0x130
  · subst hdotted
    have hlower : Bytes.lowerDigit 0x130 = 0x130 := rfl
    rw [hlower]
    refine iff_of_false (fun h => ?_) fun h => ?_
    · have hhead : (0x69 : Nat) = d := (List.cons.inj h).1
      exact absurd hd (hhead ▸ by decide)
    · exact absurd hd (h.1 ▸ by decide)
  by_cases hsigma : c = 0x3A3
  · subst hsigma
    have hlower : Bytes.lowerDigit 0x3A3 = 0x3A3 := rfl
    rw [hlower]
    refine iff_of_false (fun h => ?_) fun h => ?_
    · unfold lowerAt at h
      rw [if_neg hdotted, if_pos rfl] at h
      split at h
      · exact absurd hd ((List.cons.inj h).1 ▸ by decide)
      · exact absurd hd ((List.cons.inj h).1 ▸ by decide)
    · exact absurd hd (h.1 ▸ by decide)
  · unfold lowerAt
    rw [if_neg hdotted, if_neg hsigma, List.singleton_append, List.cons.injEq,
      lowerSimple_eq_iff hd]

/-- A text comes out as small digits exactly if it consists of them, each in either case. -/
theorem lowerFrom_eq_iff {behind : Text} (hu : ∀ d ∈ u, IsLowerHex d) :
    lowerFrom behind t = u ↔ t.map Bytes.lowerDigit = u := by
  induction t generalizing behind u with
  | nil => exact Iff.rfl
  | cons c rest ih =>
    rw [lowerFrom, List.map_cons]
    cases u with
    | nil =>
      refine iff_of_false (fun h => ?_) nofun
      have hnothing := (List.append_eq_nil_iff.1 h).1
      unfold lowerAt at hnothing
      split at hnothing
      · cases hnothing
      · split at hnothing
        · split at hnothing <;> cases hnothing
        · cases hnothing
    | cons d u =>
      obtain ⟨hd, hu⟩ := List.forall_mem_cons.1 hu
      rw [lowerAt_append_eq_iff hd, ih hu, List.cons.injEq]

end Text

namespace Bytes

variable {t : Text} {b : Bytes}

theorem isLowerHex_of_mem_toHex {c : CodePoint} (h : c ∈ b.toHex) : Text.IsLowerHex c := by
  induction b with
  | nil => cases h
  | cons x rest ih =>
    have hx := x.toNat_lt
    rw [toHex_cons, List.mem_cons, List.mem_cons] at h
    rcases h with rfl | rfl | h
    · exact Text.isLowerHex_hexDigit _ (by omega)
    · exact Text.isLowerHex_hexDigit _ (by omega)
    · exact ih h

/-- Lowering gives the digits of a byte string exactly for the texts that decode to it. -/
theorem lower_eq_toHex_iff : Text.lower t = b.toHex ↔ decodeHex t = .ok b :=
  (Text.lowerFrom_eq_iff fun _ => isLowerHex_of_mem_toHex).trans decodeHex_iff.symm

theorem lower_toHex (b : Bytes) : Text.lower b.toHex = b.toHex :=
  lower_eq_toHex_iff.2 (decodeHex_eq_ok_iff.2 (ofHex_toHex b))

end Bytes

namespace Comparison

open Bytes (decodeHex)

variable {b : Bytes} {e : Text} {got expected : Json}

/-! ## Digests -/

/-- A digest of the response is equal to an expected text exactly if that decodes to its bytes. -/
theorem deepEqual_digest_iff : deepEqual (.object [(digestKey, .text b.toHex)])
    (.object [(digestKey, .text e)]) = true ↔ decodeHex e = .ok b := by
  rw [deepEqual_digest]
  show Text.lower b.toHex = Text.lower e ↔ _
  rw [Bytes.lower_toHex, eq_comm, Bytes.lower_eq_toHex_iff]

/-- Two objects with a digest each are equal if the digests are and all the rest is. -/
theorem deepEqual_cons_digest {a v : Json} {gs es : List (Text × Json)}
    (hgs : digestKey ∉ gs.map Prod.fst) :
    deepEqual (.object ((digestKey, a) :: gs)) (.object ((digestKey, v) :: es)) = true ↔
      deepEqual (.object [(digestKey, a)]) (.object [(digestKey, v)]) = true ∧
        deepEqual (.object gs) (.object es) = true := by
  rw [deepEqual_digest]
  unfold deepEqual Json.equal
  simp only [normal, normalFields, if_true, Json.same_object_iff, Json.sameFields_iff,
    List.length_cons, Nat.add_right_cancel_iff, List.forall_mem_cons, Json.lookup]
  have hfirst : (∃ y, some (Json.text (Text.lower v.shown)) = some y ∧
      Json.same true (.text (Text.lower a.shown)) y = true) ↔
        Text.lower a.shown = Text.lower v.shown := by
    simp [Json.same]
  have hrest : (∀ p ∈ normalFields gs, ∃ y, (if digestKey = p.1 then
      some (Json.text (Text.lower v.shown)) else Json.lookup p.1 (normalFields es)) = some y ∧
        Json.same true p.2 y = true) ↔
      ∀ p ∈ normalFields gs, ∃ y, Json.lookup p.1 (normalFields es) = some y ∧
        Json.same true p.2 y = true := by
    refine forall₂_congr fun p hp => ?_
    have hp : p.1 ≠ digestKey := by
      rintro hkey
      rw [← keys_normalFields, ← hkey] at hgs
      exact hgs (List.mem_map_of_mem hp)
    rw [if_neg hp.symm]
  rw [hfirst, hrest]
  exact and_left_comm

/-! ## Tests and rounds -/

/-- **Digests as bytes.** Where the response has the digits of a byte string, the expected text is
equal to them exactly if it decodes to the byte string. A test without rounds is told by its digest
if not, and else by its output length alone; a round, or whatever else has a digest, is equal to the
expected one if moreover all the rest of it is. -/
theorem digest_agrees_iff_decodes (b : Bytes) (e : Text) :
    (∀ got expected : Json, got.field? "md" = some (.text b.toHex) →
      expected.field? "md" = some (.text e) → expected.field "resultsArray" = .null →
      (decodeHex e = .ok b →
        compareTest got expected = .ok (compareFields got expected ["outLen"])) ∧
      (decodeHex e ≠ .ok b → compareTest got expected = .ok (some (.field "md")))) ∧
    ∀ gs es : List (Text × Json), Text.ofString "md" ∉ gs.map Prod.fst →
      (deepEqual (.object (("md", .text b.toHex) :: gs)) (.object (("md", .text e) :: es)) = true ↔
        decodeHex e = .ok b ∧ deepEqual (.object gs) (.object es) = true) := by
  refine ⟨fun got expected hgot hexpected hbare => ?_, fun gs es hgs => ?_⟩
  · have hmd : got.field digestKey = .text b.toHex := field_of_field? hgot
    have hdigest : deepEqual (.object [(digestKey, got.field digestKey)])
        (.object [(digestKey, .text e)]) = true ↔ decodeHex e = .ok b := by
      rw [hmd, deepEqual_digest_iff]
    have hfields : compareFields got expected (digestKey :: ["outLen"]) = _ :=
      compareFields_cons (show expected.field? digestKey = some (.text e) from hexpected)
    rw [compareTest_without_rounds hbare, hfields]
    refine ⟨fun h => ?_, fun h => ?_⟩
    · rw [if_pos (hdigest.2 h)]
    · rw [if_neg fun hequal => h (hdigest.1 hequal)]
      rfl
  · refine (deepEqual_cons_digest hgs).trans ?_
    rw [deepEqual_digest_iff]

/-- A digest in mixed case; a text that has a letter of another script in the place of one; and a
round with its digest in upper case. -/
theorem digest_agrees_in_mixed_case :
    compareTest (.object [("md", .text "abcd"), ("outLen", .int 16)])
      (.object [("md", .text "aBCd")]) = .ok none ∧
    compareTest (.object [("md", .text "abcd")]) (.object [("md", .text "ab\u0441d")]) =
      .ok (some (.field "md")) ∧
    deepEqual (.object [("md", .text "abcd"), ("outLen", .int 16)])
      (.object [("md", .text "ABCD"), ("outLen", .int 16)]) = true := by
  have hmixed := (digest_agrees_iff_decodes [0xAB, 0xCD] "aBCd").1
    (.object [("md", .text "abcd"), ("outLen", .int 16)]) (.object [("md", .text "aBCd")])
    rfl rfl rfl
  have hscript := (digest_agrees_iff_decodes [0xAB, 0xCD] "ab\u0441d").1
    (.object [("md", .text "abcd")]) (.object [("md", .text "ab\u0441d")]) rfl rfl rfl
  have hround := (digest_agrees_iff_decodes [0xAB, 0xCD] "ABCD").2
    [("outLen", .int 16)] [("outLen", .int 16)] (by decide)
  refine ⟨hmixed.1 rfl, hscript.2 nofun, hround.2 ⟨rfl, ?_⟩⟩
  rfl

end Comparison

end XofConformance
