import Mathlib.Data.List.Basic
import XofConformance.Json.Reader
import XofConformance.Json.Writer
import XofConformance.Proofs.Bytes.Hex

/-!
# Reading escaped texts

A text inside a string is written in pieces: a code point as it is, a short escape, or an escape by
code unit. Whatever pieces follow each other, they are read up to the closing quote, and escapes of
a high and of a low surrogate that meet are read as one code point. So a text of scalar values comes
back as it was; only lone surrogates that meet come back joined.

    readChars start fuel (t.flatMap escapeChar ++ 0x22 :: rest) = .ok (rejoined t, rest)
                                                                         (readChars_escaped)
    rejoined t = t  for a text of scalar values                          (rejoined_of_scalar)
-/

namespace XofConformance.Json

/-! ## Pieces -/

/-- A part of a written text. -/
inductive Piece
  | plain (c : CodePoint)
  | short (letter c : CodePoint)
  | unit (u : Nat)

namespace Piece

/-- What a piece is written as. -/
def spelled : Piece → Text
  | plain c => [c]
  | short letter _ => [0x5C, letter]
  | unit u => unitEscape u

/-- What a piece stands for; an escape by code unit has four digits. -/
def value : Piece → Nat
  | plain c => c
  | short _ c => c
  | unit u => u % 0x10000

/-- What is written is what the piece stands for. -/
def IsSound : Piece → Prop
  | plain c => 0x20 ≤ c ∧ c ≤ 0x7E ∧ c ≠ 0x22 ∧ c ≠ 0x5C
  | short letter c => simpleEscape? letter = some c
  | unit _ => True

end Piece

/-- The pieces of a code point. -/
def pieces (c : CodePoint) : List Piece :=
  if c = 0x22 ∨ c = 0x5C then [.short c c]
  else if c = 0x08 then [.short 0x62 c]
  else if c = 0x09 then [.short 0x74 c]
  else if c = 0x0A then [.short 0x6E c]
  else if c = 0x0C then [.short 0x66 c]
  else if c = 0x0D then [.short 0x72 c]
  else if 0x20 ≤ c ∧ c ≤ 0x7E then [.plain c]
  else if c < 0x10000 then [.unit c]
  else [.unit (0xD800 + (c - 0x10000) / 0x400), .unit (0xDC00 + (c - 0x10000) % 0x400)]

/-- The code points of code units: a high surrogate and a low one after it stand for one. -/
def joinUnits : List Nat → Text
  | [] => []
  | [u] => [u]
  | u :: v :: rest =>
    if isHigh u && isLow v then joinPair u v :: joinUnits rest else u :: joinUnits (v :: rest)

/-- The text that a written text is read as. -/
def rejoined (t : Text) : Text := joinUnits ((t.flatMap pieces).map Piece.value)

/-- Pieces up to the closing quote, and what comes after it. -/
def toQuote (ps : List Piece) (rest : Text) : Text := ps.flatMap Piece.spelled ++ 0x22 :: rest

variable {c : CodePoint} {p : Piece} {ps : List Piece} {rest start t : Text} {u high fuel : Nat}

theorem escapeChar_eq (c : CodePoint) : escapeChar c = (pieces c).flatMap Piece.spelled := by
  unfold escapeChar pieces
  by_cases hself : c = 0x22 ∨ c = 0x5C
  · rw [if_pos hself, if_pos hself]
    rfl
  rw [if_neg hself, if_neg hself]
  iterate 6
    split
    · rfl
  split
  · exact (List.append_nil _).symm
  · exact congrArg _ (List.append_nil _).symm

theorem isSound_of_mem_pieces (h : p ∈ pieces c) : p.IsSound := by
  unfold pieces at h
  by_cases hself : c = 0x22 ∨ c = 0x5C
  · rw [if_pos hself] at h
    obtain rfl := List.mem_singleton.1 h
    rcases hself with rfl | rfl <;> rfl
  rw [if_neg hself] at h
  iterate 5
    split at h
    · next hc =>
      obtain rfl := List.mem_singleton.1 h
      rw [hc]
      rfl
  split at h
  · next hc =>
    obtain rfl := List.mem_singleton.1 h
    exact ⟨hc.1, hc.2, fun he => hself (Or.inl he), fun he => hself (Or.inr he)⟩
  split at h
  · obtain rfl := List.mem_singleton.1 h
    trivial
  · rcases List.mem_cons.1 h with rfl | h
    · trivial
    · obtain rfl := List.mem_singleton.1 h
      trivial

theorem length_spelled_pos (p : Piece) : 0 < p.spelled.length := by
  cases p <;> exact Nat.succ_pos _

theorem toQuote_cons : toQuote (p :: ps) rest = p.spelled ++ toQuote ps rest := by
  unfold toQuote
  rw [List.flatMap_cons, List.append_assoc]

theorem toQuote_ne_nil : toQuote ps rest ≠ [] :=
  List.append_ne_nil_of_right_ne_nil _ (List.cons_ne_nil _ _)

/-! ## Surrogates -/

theorem isHigh_iff : isHigh u = true ↔ 0xD800 ≤ u ∧ u ≤ 0xDBFF := by
  unfold isHigh
  rw [Bool.and_eq_true, decide_eq_true_iff, decide_eq_true_iff]

theorem isLow_iff : isLow u = true ↔ 0xDC00 ≤ u ∧ u ≤ 0xDFFF := by
  unfold isLow
  rw [Bool.and_eq_true, decide_eq_true_iff, decide_eq_true_iff]

theorem joinUnits_of_not_high {us : List Nat} (h : isHigh u = false) :
    joinUnits (u :: us) = u :: joinUnits us := by
  cases us with
  | nil => rfl
  | cons v us => simp [joinUnits, h]

theorem joinUnits_of_not_low {v : Nat} {us : List Nat} (h : isLow v = false) :
    joinUnits (u :: v :: us) = u :: joinUnits (v :: us) := by
  simp [joinUnits, h]

theorem joinUnits_of_pair {v : Nat} {us : List Nat} (hu : isHigh u = true) (hv : isLow v = true) :
    joinUnits (u :: v :: us) = joinPair u v :: joinUnits us := by
  simp [joinUnits, hu, hv]

/-- A short escape is plain, and what it stands for is ASCII. -/
theorem isPlain_of_simpleEscape? {letter : CodePoint} (h : simpleEscape? letter = some c) :
    Text.IsPlain letter ∧ c < 0x80 := by
  unfold simpleEscape? at h
  split at h
  · next hself =>
    cases h
    rcases hself with rfl | rfl | rfl <;> decide
  iterate 5
    split at h
    · next hletter =>
      cases h
      rw [hletter]
      decide
  cases h

/-- What is written is plain. -/
theorem isPlain_of_mem_spelled (hp : p.IsSound) (hc : c ∈ p.spelled) : Text.IsPlain c := by
  cases p with
  | plain d =>
    obtain rfl := List.mem_singleton.1 hc
    exact ⟨hp.1, hp.2.1⟩
  | short letter d =>
    rcases List.mem_cons.1 hc with rfl | hc
    · decide
    · obtain rfl := List.mem_singleton.1 hc
      exact (isPlain_of_simpleEscape? hp).1
  | unit u =>
    have hmark : ∀ d ∈ Text.ofString "\\u", Text.IsPlain d := by decide
    exact (List.mem_append.1 hc).elim (hmark c) Text.isPlain_of_mem_ofHex

/-- Only an escape by code unit stands for a surrogate. -/
theorem value_lt_of_isSound (hp : p.IsSound) (hunit : ∀ u, p ≠ .unit u) : p.value < 0xD800 := by
  cases p with
  | plain c =>
    obtain ⟨-, hc, -⟩ := hp
    exact Nat.lt_of_le_of_lt hc (by decide)
  | short letter c => exact Nat.lt_trans (isPlain_of_simpleEscape? hp).2 (by decide)
  | unit u => exact absurd rfl (hunit u)

/-! ## Reading -/

/-- Four digits are read as what they spell. -/
theorem exists_ofHex (u : Nat) : ∃ a b c d, Text.ofHex 4 u = [a, b, c, d] ∧
    hex4? a b c d = some (u % 0x10000) := by
  refine ⟨Text.hexDigit (u / 16 / 16 / 16 % 16), Text.hexDigit (u / 16 / 16 % 16),
    Text.hexDigit (u / 16 % 16), Text.hexDigit (u % 16), rfl, ?_⟩
  unfold hex4?
  rw [Bytes.hexValue?_hexDigit _ (by omega), Bytes.hexValue?_hexDigit _ (by omega),
    Bytes.hexValue?_hexDigit _ (by omega), Bytes.hexValue?_hexDigit _ (by omega)]
  have hsum : u / 16 / 16 / 16 % 16 * 0x1000 + u / 16 / 16 % 16 * 0x100 + u / 16 % 16 * 0x10 +
      u % 16 = u % 0x10000 := by omega
  exact congrArg some hsum

theorem readLow_unit (hrest : rest ≠ []) : readLow high (unitEscape u ++ rest) =
    if isLow (u % 0x10000) then .ok (joinPair high (u % 0x10000), rest)
    else .ok (high, unitEscape u ++ rest) := by
  obtain ⟨a, b, c, d, hdigits, hvalue⟩ := exists_ofHex u
  obtain ⟨e, rest, rfl⟩ := List.exists_cons_of_ne_nil hrest
  have hspelled : unitEscape u = [0x5C, 0x75, a, b, c, d] := by
    unfold unitEscape
    rw [hdigits]
    rfl
  rw [hspelled]
  show readLow high (0x5C :: 0x75 :: a :: b :: c :: d :: e :: rest) = _
  simp only [readLow, hvalue]
  rfl

/-- What does not begin with an escape by code unit is left where it is. -/
theorem readLow_of_ne (h : ∀ t', t ≠ 0x5C :: 0x75 :: t') : readLow high t = .ok (high, t) := by
  unfold readLow
  split
  · exact absurd rfl (h _)
  · rfl

theorem readUnicode_unit (hrest : rest ≠ []) :
    readUnicode (0x75 :: (Text.ofHex 4 u ++ rest)) =
      if isHigh (u % 0x10000) then readLow (u % 0x10000) rest else .ok (u % 0x10000, rest) := by
  obtain ⟨a, b, c, d, hdigits, hvalue⟩ := exists_ofHex u
  obtain ⟨e, rest, rfl⟩ := List.exists_cons_of_ne_nil hrest
  rw [hdigits]
  show readUnicode (0x75 :: a :: b :: c :: d :: e :: rest) = _
  simp only [readUnicode, hvalue]

/-- After a high surrogate, a low one is read with it, and nothing else is. -/
theorem readLow_toQuote (hps : ∀ p ∈ ps, p.IsSound) (hhigh : isHigh high = true) :
    ∃ c ps', readLow high (toQuote ps rest) = .ok (c, toQuote ps' rest) ∧ ps' <:+ ps ∧
      joinUnits (high :: ps.map Piece.value) = c :: joinUnits (ps'.map Piece.value) := by
  cases ps with
  | nil => exact ⟨high, [], readLow_of_ne nofun, List.suffix_refl _, rfl⟩
  | cons p ps =>
    obtain ⟨hp, -⟩ := List.forall_mem_cons.1 hps
    have hother : (∀ u, p ≠ .unit u) →
        joinUnits (high :: (p :: ps).map Piece.value) =
          high :: joinUnits ((p :: ps).map Piece.value) := by
      intro hunit
      have hlt := value_lt_of_isSound hp hunit
      refine joinUnits_of_not_low ?_
      rw [← Bool.not_eq_true, isLow_iff]
      omega
    rw [toQuote_cons]
    cases p with
    | plain c =>
      refine ⟨high, _, readLow_of_ne fun t' ht => ?_, List.suffix_refl _, hother nofun⟩
      exact hp.2.2.2 (List.cons.inj ht).1
    | short letter c =>
      refine ⟨high, _, readLow_of_ne fun t' ht => ?_, List.suffix_refl _, hother nofun⟩
      obtain rfl : letter = 0x75 := (List.cons.inj (List.cons.inj ht).2).1
      cases hp
    | unit u =>
      by_cases hlow : isLow (u % 0x10000) = true
      · exact ⟨_, ps, (readLow_unit toQuote_ne_nil).trans (if_pos hlow), List.suffix_cons _ _,
          joinUnits_of_pair hhigh hlow⟩
      · exact ⟨_, _, (readLow_unit toQuote_ne_nil).trans (if_neg hlow), List.suffix_refl _,
          joinUnits_of_not_low (Bool.eq_false_iff.2 hlow)⟩

/-- Reading goes on after what the first piece, or a pair of them, stands for. -/
theorem readChars_piece (start rest : Text) (hps : ∀ q ∈ p :: ps, q.IsSound) :
    ∃ c ps', ps' <:+ ps ∧
      joinUnits ((p :: ps).map Piece.value) = c :: joinUnits (ps'.map Piece.value) ∧
      ∀ fuel, readChars start (fuel + 1) (toQuote (p :: ps) rest) = (do
        let (t, rest) ← readChars start fuel (toQuote ps' rest)
        return (c :: t, rest)) := by
  obtain ⟨hp, hrest⟩ := List.forall_mem_cons.1 hps
  have hvalue : (∀ u, p ≠ .unit u) → joinUnits ((p :: ps).map Piece.value) =
      p.value :: joinUnits (ps.map Piece.value) := by
    intro hunit
    have hlt := value_lt_of_isSound hp hunit
    refine joinUnits_of_not_high ?_
    rw [← Bool.not_eq_true, isHigh_iff]
    omega
  rw [toQuote_cons]
  cases p with
  | plain c =>
    obtain ⟨hleast, -, hquote, hslash⟩ := hp
    refine ⟨c, ps, List.suffix_refl _, hvalue nofun, fun fuel => ?_⟩
    show readChars start (fuel + 1) (c :: toQuote ps rest) = _
    have hcontrol : ¬ c ≤ 0x1F := Nat.not_le.2 hleast
    rw [readChars, if_neg hquote, if_neg hslash, if_neg hcontrol]
  | short letter c =>
    have hletter : letter ≠ 0x75 := by
      rintro rfl
      cases hp
    refine ⟨c, ps, List.suffix_refl _, hvalue nofun, fun fuel => ?_⟩
    show readChars start (fuel + 1) (0x5C :: letter :: toQuote ps rest) = _
    have hescape : readEscape start (letter :: toQuote ps rest) = .ok (c, toQuote ps rest) := by
      have hsimple : simpleEscape? letter = some c := hp
      simp only [readEscape, if_neg hletter, hsimple]
    rw [readChars, if_neg (by decide), if_pos rfl, hescape]
    rfl
  | unit u =>
    have hescape : ∃ c ps', readEscape start (0x75 :: (Text.ofHex 4 u ++ toQuote ps rest)) =
        .ok (c, toQuote ps' rest) ∧ ps' <:+ ps ∧
        joinUnits (u % 0x10000 :: ps.map Piece.value) = c :: joinUnits (ps'.map Piece.value) := by
      simp only [readEscape, if_pos, readUnicode_unit toQuote_ne_nil]
      by_cases hhigh : isHigh (u % 0x10000) = true
      · rw [if_pos hhigh]
        exact readLow_toQuote hrest hhigh
      · rw [if_neg hhigh]
        exact ⟨_, ps, rfl, List.suffix_refl _, joinUnits_of_not_high (Bool.eq_false_iff.2 hhigh)⟩
    obtain ⟨c, ps', hread, hsuffix, hjoin⟩ := hescape
    refine ⟨c, ps', hsuffix, hjoin, fun fuel => ?_⟩
    show readChars start (fuel + 1) (0x5C :: 0x75 :: (Text.ofHex 4 u ++ toQuote ps rest)) = _
    rw [readChars, if_neg (by decide), if_pos rfl, hread]
    rfl

/-- Pieces are read up to the closing quote. -/
theorem readChars_toQuote (hps : ∀ p ∈ ps, p.IsSound) (hfuel : ps.length < fuel) :
    readChars start fuel (toQuote ps rest) = .ok (joinUnits (ps.map Piece.value), rest) := by
  induction fuel generalizing ps with
  | zero => omega
  | succ fuel ih =>
    cases ps with
    | nil => rfl
    | cons p ps =>
      obtain ⟨c, ps', hsuffix, hjoin, hstep⟩ := readChars_piece start rest hps
      have hshort : ps'.length ≤ ps.length := hsuffix.length_le
      have hlength : ps.length + 1 < fuel + 1 := hfuel
      have hrest := ih (fun q hq => hps q (List.mem_cons_of_mem _ (hsuffix.subset hq)))
        (by omega)
      rw [hstep, hrest, hjoin]
      rfl

/-! ## Texts -/

theorem flatMap_escapeChar (t : Text) :
    t.flatMap escapeChar = (t.flatMap pieces).flatMap Piece.spelled := by
  rw [List.flatMap_assoc]
  exact List.flatMap_congr fun c _ => escapeChar_eq c

theorem length_le_flatMap_spelled (ps : List Piece) :
    ps.length ≤ (ps.flatMap Piece.spelled).length := by
  induction ps with
  | nil => exact Nat.le_refl _
  | cons p rest ih =>
    have hpos := length_spelled_pos p
    rw [List.flatMap_cons, List.length_append, List.length_cons]
    omega

theorem isPlain_of_mem_escapeChar {d : CodePoint} (h : d ∈ escapeChar c) : Text.IsPlain d := by
  rw [escapeChar_eq] at h
  obtain ⟨p, hp, hd⟩ := List.mem_flatMap.1 h
  exact isPlain_of_mem_spelled (isSound_of_mem_pieces hp) hd

/-- An escaped text is read up to the closing quote. -/
theorem readChars_escaped (t start rest : Text) (hfuel : (t.flatMap escapeChar).length < fuel) :
    readChars start fuel (t.flatMap escapeChar ++ 0x22 :: rest) = .ok (rejoined t, rest) := by
  rw [flatMap_escapeChar] at hfuel ⊢
  refine readChars_toQuote (fun p hp => ?_)
    (Nat.lt_of_le_of_lt (length_le_flatMap_spelled _) hfuel)
  obtain ⟨c, -, hc⟩ := List.mem_flatMap.1 hp
  exact isSound_of_mem_pieces hc

theorem map_value_pieces_of_lt (h : c < 0x10000) : (pieces c).map Piece.value = [c] := by
  have hunit : c % 0x10000 = c := Nat.mod_eq_of_lt h
  unfold pieces
  iterate 7
    split
    · rfl
  exact congrArg (fun u => [u]) hunit

theorem pieces_of_ge {c : Nat} (h : 0x10000 ≤ c) : pieces c =
    [.unit (0xD800 + (c - 0x10000) / 0x400), .unit (0xDC00 + (c - 0x10000) % 0x400)] := by
  have hne : ∀ d : Nat, d < 0x10000 → c ≠ d := fun d hd => by omega
  unfold pieces
  rw [if_neg fun hc => hc.elim (hne _ (by decide)) (hne _ (by decide)), if_neg (hne _ (by decide)),
    if_neg (hne _ (by decide)), if_neg (hne _ (by decide)), if_neg (hne _ (by decide)),
    if_neg (hne _ (by decide)), if_neg fun hc => hne _ (Nat.lt_of_le_of_lt hc.2 (by decide)) rfl,
    if_neg (Nat.not_lt.2 h)]

/-- The two units of a code point past the first plane are a pair that stands for it. -/
theorem joinUnits_pair {k : Nat} {us : List Nat} (h : k < 0x100000) :
    joinUnits ((0xD800 + k / 0x400) % 0x10000 :: (0xDC00 + k % 0x400) % 0x10000 :: us) =
      (0x10000 + k) :: joinUnits us := by
  have hhigh : (0xD800 + k / 0x400) % 0x10000 = 0xD800 + k / 0x400 := by omega
  have hlow : (0xDC00 + k % 0x400) % 0x10000 = 0xDC00 + k % 0x400 := by omega
  have hjoin : 0x10000 + (0xD800 + k / 0x400 - 0xD800) * 0x400 + (0xDC00 + k % 0x400 - 0xDC00) =
      0x10000 + k := by omega
  rw [hhigh, hlow, joinUnits_of_pair (isHigh_iff.2 (by omega)) (isLow_iff.2 (by omega))]
  exact congrArg (· :: joinUnits us) hjoin

/-- A scalar value is read back as it was. -/
theorem joinUnits_pieces {us : List Nat} (hc : Text.IsScalar c) :
    joinUnits ((pieces c).map Piece.value ++ us) = c :: joinUnits us := by
  obtain ⟨hgreatest, hsurrogate⟩ := hc
  by_cases hlt : c < 0x10000
  · rw [map_value_pieces_of_lt hlt]
    refine joinUnits_of_not_high ?_
    rw [← Bool.not_eq_true, isHigh_iff]
    exact fun hhigh => hsurrogate ⟨hhigh.1, Nat.le_trans hhigh.2 (by decide)⟩
  · obtain ⟨k, rfl⟩ := Nat.exists_eq_add_of_le (Nat.not_lt.1 hlt)
    rw [pieces_of_ge (Nat.not_lt.1 hlt), Nat.add_sub_cancel_left]
    exact joinUnits_pair (Nat.lt_of_add_lt_add_left hgreatest)

/-- A text of scalar values is read back as it was. -/
theorem rejoined_of_scalar (h : ∀ c ∈ t, Text.IsScalar c) : rejoined t = t := by
  unfold rejoined
  induction t with
  | nil => rfl
  | cons c rest ih =>
    obtain ⟨hc, hrest⟩ := List.forall_mem_cons.1 h
    rw [List.flatMap_cons, List.map_append, joinUnits_pieces hc, ih hrest]

end XofConformance.Json
