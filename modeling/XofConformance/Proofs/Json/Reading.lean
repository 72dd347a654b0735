import XofConformance.Json.Reader

/-!
# Reading

What reading gives on texts of a known form. An integer that is written in decimal is read as
itself, whatever comes after it, as long as that does not go on with the number.

    decimalValue (ofNat n) = n                                          (decimalValue_ofNat)
    readValue (fuel + 1) (ofInt i ++ rest) = .ok (.int i, rest)           (readValue_ofInt)
-/

namespace XofConformance

/-! ## Digits -/

namespace Text

variable {n : Nat} {c : CodePoint} {rest : Text}

theorem ne_of_isDigit {d : CodePoint} (hc : isDigit c = true) (hd : isDigit d = false) : c ≠ d := by
  rintro rfl
  rw [hc] at hd
  cases hd

theorem ofNat_ne_nil (n : Nat) : ofNat n ≠ [] := by
  unfold ofNat
  rw [ne_eq, List.map_eq_nil_iff]
  exact Nat.toDigits_ne_nil

theorem isDigit_of_mem_ofNat (h : c ∈ ofNat n) : isDigit c = true := by
  unfold ofNat at h
  obtain ⟨d, hd, rfl⟩ := List.mem_map.1 h
  have hdigit := Nat.isDigit_of_mem_toDigits (by omega) (by omega) hd
  unfold Char.isDigit at hdigit
  rw [Bool.and_eq_true, decide_eq_true_iff, decide_eq_true_iff] at hdigit
  obtain ⟨hlow, hhigh⟩ := hdigit
  have hlow' : 0x30 ≤ d.toNat := hlow
  have hhigh' : d.toNat ≤ 0x39 := hhigh
  unfold isDigit
  rw [Bool.and_eq_true, decide_eq_true_iff, decide_eq_true_iff]
  exact ⟨hlow', hhigh'⟩

/-- A numeral begins with a digit. -/
theorem exists_ofNat_eq_cons (n : Nat) : ∃ c ds, ofNat n = c :: ds ∧ isDigit c = true := by
  cases hd : ofNat n with
  | nil => exact absurd hd (ofNat_ne_nil n)
  | cons c ds =>
    have hc : c ∈ ofNat n := by
      rw [hd]
      exact List.mem_cons_self
    exact ⟨c, ds, rfl, isDigit_of_mem_ofNat hc⟩

theorem decimalValue_ofNat (n : Nat) : decimalValue (ofNat n) = n := by
  have hfold : ∀ (digits : List Char) (k : Nat),
      (digits.map Char.toNat).foldl (fun k c => k * 10 + digitValue c) k =
        Nat.ofDigitChars 10 digits k := by
    intro digits
    induction digits with
    | nil => intro k; simp
    | cons d rest ih =>
      intro k
      rw [List.map_cons, List.foldl_cons, Nat.ofDigitChars_cons, ih, Nat.mul_comm]
      rfl
  show (ofNat n).foldl _ 0 = n
  unfold ofNat
  rw [hfold, Nat.ofDigitChars_ten_toDigits]

/-- Only zero begins with a zero. -/
theorem head_ofNat_ne (hn : n ≠ 0) : (ofNat n).head? ≠ some 0x30 := by
  induction n using Nat.strongRecOn with
  | _ n ih =>
    unfold ofNat at ih ⊢
    by_cases hlt : n < 10
    · rw [Nat.toDigits_of_lt_base hlt]
      match n, hlt, hn with
      | 1, _, _ | 2, _, _ | 3, _, _ | 4, _, _ | 5, _, _ | 6, _, _ | 7, _, _ | 8, _, _ | 9, _, _ =>
        decide
    · have hhead := ih (n / 10) (by omega) (by omega)
      rw [Nat.toDigits_of_base_le (by omega) (by omega), List.map_append, List.head?_append]
      cases hd : (Nat.toDigits 10 (n / 10)).map Char.toNat with
      | nil => exact absurd (List.map_eq_nil_iff.1 hd) Nat.toDigits_ne_nil
      | cons d ds =>
        rw [hd] at hhead
        exact hhead

theorem takeWhile_isDigit_ofNat (h : ∀ c, rest.head? = some c → isDigit c = false) :
    (ofNat n ++ rest).takeWhile isDigit = ofNat n := by
  rw [List.takeWhile_append_of_pos fun c hc => isDigit_of_mem_ofNat hc]
  cases rest with
  | nil => simp
  | cons c rest => simp [h c rfl]

theorem dropWhile_isDigit_ofNat (h : ∀ c, rest.head? = some c → isDigit c = false) :
    (ofNat n ++ rest).dropWhile isDigit = rest := by
  rw [List.dropWhile_append_of_pos fun c hc => isDigit_of_mem_ofNat hc]
  cases rest with
  | nil => rfl
  | cons c rest => simp [h c rfl]

end Text

/-! ## Reading -/

namespace Json

variable {n : Nat} {rest : Text}

/-- The text does not go on with a number. -/
def EndsNumber (rest : Text) : Prop :=
  ∀ c, rest.head? = some c → Text.isDigit c = false ∧ c ≠ 0x2E ∧ c ≠ 0x65 ∧ c ≠ 0x45

theorem readInteger?_ofNat (h : EndsNumber rest) :
    readInteger? (Text.ofNat n ++ rest) = some (Text.ofNat n, rest) := by
  have hrest : ∀ c, rest.head? = some c → Text.isDigit c = false := fun c hc => (h c hc).1
  by_cases hn : n = 0
  · subst hn
    rfl
  · have htake := Text.takeWhile_isDigit_ofNat (n := n) hrest
    have hdrop := Text.dropWhile_isDigit_ofNat (n := n) hrest
    obtain ⟨c, ds, hd, hc⟩ := Text.exists_ofNat_eq_cons n
    have hzero : c ≠ 0x30 := by
      have hhead := Text.head_ofNat_ne hn
      rw [hd] at hhead
      exact fun he => hhead (by rw [he]; rfl)
    rw [hd] at htake hdrop ⊢
    rw [List.cons_append] at htake hdrop ⊢
    rw [readInteger?, if_neg hzero, if_pos hc, htake, hdrop]

theorem readFraction?_eq_none (h : EndsNumber rest) : readFraction? rest = none := by
  cases rest with
  | nil => rfl
  | cons c rest =>
    unfold readFraction?
    split
    · next heq => cases heq; exact absurd rfl (h _ rfl).2.1
    · rfl

theorem readExponent?_eq_none (h : EndsNumber rest) : Number.readExponent? rest = none := by
  cases rest with
  | nil => rfl
  | cons c rest =>
    obtain ⟨-, -, he, hE⟩ := h c rfl
    rw [Number.readExponent?, if_neg fun hc => hc.elim he hE]

theorem readNumber?_ofNat (h : EndsNumber rest) :
    readNumber? (Text.ofNat n ++ rest) = some (.int n, rest) := by
  unfold readNumber?
  split
  next negative t heq =>
    split at heq
    · next ht =>
      -- a numeral does not begin with a sign
      obtain ⟨c, ds, hd, hc⟩ := Text.exists_ofNat_eq_cons n
      rw [hd] at ht
      cases ht
      cases hc
    · cases heq
      simp only [readInteger?_ofNat h, readFraction?_eq_none h, readExponent?_eq_none h,
        Bool.or_self, Bool.false_eq_true, if_false, Text.decimalValue_ofNat]

theorem readNumber?_neg (h : EndsNumber rest) :
    readNumber? (0x2D :: (Text.ofNat n ++ rest)) = some (.int (-n), rest) := by
  unfold readNumber?
  split
  next negative t heq =>
    cases heq
    simp only [readInteger?_ofNat h, readFraction?_eq_none h, readExponent?_eq_none h,
      Bool.or_self, Bool.false_eq_true, if_false, Text.decimalValue_ofNat, if_true]

/-- No value that is written as a word begins with a digit. -/
theorem readWord?_digit {c : CodePoint} (hc : Text.isDigit c = true) :
    readWord? (c :: rest) = none := by
  have hwords : ∀ w ∈ words, ∃ d ds, w.1 = d :: ds ∧ Text.isDigit d = false := by
    intro w hw
    simp only [words, List.mem_cons, List.not_mem_nil, or_false] at hw
    rcases hw with rfl | rfl | rfl | rfl | rfl | rfl <;> exact ⟨_, _, rfl, rfl⟩
  unfold readWord?
  rw [List.findSome?_eq_none_iff]
  intro w hw
  obtain ⟨d, ds, hd, hnot⟩ := hwords w hw
  rw [hd, dropWord?, if_neg (Ne.symm (Text.ne_of_isDigit hc hnot))]
  rfl

/-- The only word that begins with a minus goes on with a letter. -/
theorem readWord?_neg {c : CodePoint} (hc : Text.isDigit c = true) :
    readWord? (0x2D :: c :: rest) = none := by
  have hletter : 0x49 ≠ c := Ne.symm (Text.ne_of_isDigit hc (by decide))
  have hwords : ∀ w ∈ words, dropWord? w.1 (0x2D :: c :: rest) = none := by
    intro w hw
    simp only [words, List.mem_cons, List.not_mem_nil, or_false] at hw
    rcases hw with rfl | rfl | rfl | rfl | rfl | rfl
    iterate 5 rfl
    exact if_neg hletter
  unfold readWord?
  rw [List.findSome?_eq_none_iff]
  intro w hw
  rw [hwords w hw]
  rfl

theorem readValue_ofNat (h : EndsNumber rest) (fuel : Nat) :
    readValue (fuel + 1) (Text.ofNat n ++ rest) = .ok (.int n, rest) := by
  have hnumber := readNumber?_ofNat (n := n) h
  obtain ⟨c, ds, hd, hc⟩ := Text.exists_ofNat_eq_cons n
  have hword : readWord? (c :: (ds ++ rest)) = none := readWord?_digit hc
  have hquote : c ≠ 0x22 := Text.ne_of_isDigit hc (by decide)
  have hbrace : c ≠ 0x7B := Text.ne_of_isDigit hc (by decide)
  have hbracket : c ≠ 0x5B := Text.ne_of_isDigit hc (by decide)
  rw [hd] at hnumber ⊢
  rw [List.cons_append] at hnumber ⊢
  rw [readValue, if_neg hquote, if_neg hbrace, if_neg hbracket, hword]
  simp only [hnumber]
  rfl

theorem readValue_ofInt (h : EndsNumber rest) (i : Int) (fuel : Nat) :
    readValue (fuel + 1) (Text.ofInt i ++ rest) = .ok (.int i, rest) := by
  cases i with
  | ofNat n => exact readValue_ofNat h fuel
  | negSucc n =>
    have hnumber := readNumber?_neg (n := n + 1) h
    obtain ⟨c, ds, hd, hc⟩ := Text.exists_ofNat_eq_cons (n + 1)
    show readValue (fuel + 1) (0x2D :: (Text.ofNat (n + 1) ++ rest)) = _
    rw [readValue, if_neg (by decide), if_neg (by decide), if_neg (by decide)]
    rw [hd] at hnumber ⊢
    rw [List.cons_append] at hnumber ⊢
    rw [readWord?_neg hc]
    simp only [hnumber]
    rfl

/-! ## Documents -/

/-- A text is read if a value is read from its first part that is no space, and nothing but spaces
is left. -/
theorem read_of_readValue {t : Text} {v : Json} (hmark : t.head? ≠ some 0xFEFF)
    (h : readValue (2 * t.length + 2) (skipSpace t) = .ok (v, rest))
    (hrest : skipSpace rest = []) : read t = .ok v := by
  have hdocument : readDocument t = .ok v := by
    unfold readDocument
    split
    · exact absurd rfl hmark
    · simp only [h, hrest, bind, Except.bind]
      rfl
  rw [read, hdocument]

end Json

end XofConformance
