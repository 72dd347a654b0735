import Mathlib.Data.List.TakeWhile
import XofConformance.Text.Printable
import XofConformance.Proofs.Bytes.Digits

/-!
# Documents of elements and text

What a well-formed document of XML 1.0 is, as far as it consists of elements, attributes and text:
comments, CDATA sections, processing instructions and document types, all of which begin with `<!`
or `<?`, are left out. Line ends are taken as normalised, so that a carriage return stands in a
document only as a reference.

The relations say what a text begins with and what comes after that. What they read is determined
by the text. A text that is read to its end is sound: it holds no code point that no document may
hold, and no `&` that begins no reference.

    Reads t ns rest → Reads t ns' rest' → ns = ns' ∧ rest = rest'                  (Reads.unique)
    ReadsDocument t root → Sound t                                          (ReadsDocument.sound)
-/

namespace XofConformance.Xml

/-! ## Code points -/

/-- The code points that may stand in a document. -/
def characters : List (Nat × Nat) :=
  [(0x09, 0x0A), (0x0D, 0x0D), (0x20, 0xD7FF), (0xE000, 0xFFFD), (0x10000, 0x10FFFF)]

/-- The code point may stand in a document. -/
def IsChar (c : CodePoint) : Prop := Text.inRanges characters c = true

instance (c : CodePoint) : Decidable (IsChar c) := inferInstanceAs (Decidable (_ = true))

/-- The code point is white space. -/
def isBlank (c : CodePoint) : Bool := Text.inRanges [(0x09, 0x0A), (0x0D, 0x0D), (0x20, 0x20)] c

theorem isBlank_iff {c : Nat} :
    isBlank c = true ↔ c = 0x20 ∨ c = 0x09 ∨ c = 0x0A ∨ c = 0x0D := by
  have hranges : isBlank c = true ↔
      (0x09 ≤ c ∧ c ≤ 0x0A) ∨ (0x0D ≤ c ∧ c ≤ 0x0D) ∨ 0x20 ≤ c ∧ c ≤ 0x20 := by
    simp [isBlank, Text.inRanges]
  rw [hranges]
  omega

/-- The code points with which a name may begin. -/
def nameStarts : List (Nat × Nat) :=
  [(0x3A, 0x3A), (0x41, 0x5A), (0x5F, 0x5F), (0x61, 0x7A), (0xC0, 0xD6), (0xD8, 0xF6),
    (0xF8, 0x2FF), (0x370, 0x37D), (0x37F, 0x1FFF), (0x200C, 0x200D), (0x2070, 0x218F),
    (0x2C00, 0x2FEF), (0x3001, 0xD7FF), (0xF900, 0xFDCF), (0xFDF0, 0xFFFD), (0x10000, 0xEFFFF)]

/-- The code points of names: besides those, hyphen, point, digits and some marks. -/
def nameParts : List (Nat × Nat) :=
  nameStarts ++ [(0x2D, 0x2E), (0x30, 0x39), (0xB7, 0xB7), (0x300, 0x36F), (0x203F, 0x2040)]

/-- The text is a name. -/
def isName : Text → Bool
  | [] => false
  | c :: rest => Text.inRanges nameStarts c && rest.all (Text.inRanges nameParts)

/-- A value of an attribute stands between two quotes of one kind. -/
def IsQuote (c : CodePoint) : Prop := c = 0x22 ∨ c = 0x27

/-! ## References -/

/-- The characters that have a name. -/
def namedCharacters : List (Text × CodePoint) :=
  [("lt", 0x3C), ("gt", 0x3E), ("amp", 0x26), ("quot", 0x22), ("apos", 0x27)]

/-- The character whose number is written in digits. -/
def numbered? (base : Nat) (value? : CodePoint → Option Nat) (digits : Text) : Option CodePoint :=
  let n := Text.digitsValue base (fun c => (value? c).getD 0) digits
  if digits ≠ [] ∧ (∀ c ∈ digits, (value? c).isSome = true) ∧ IsChar n then some n else none

/-- The value of a decimal digit. -/
def decimalValue? (c : CodePoint) : Option Nat :=
  if Text.isDigit c then some (Text.digitValue c) else none

/-- The character that is referred to, by name or by number. -/
def reference? : Text → Option CodePoint
  | 0x23 :: 0x78 :: digits => numbered? 16 Text.hexValue? digits
  | 0x23 :: digits => numbered? 10 decimalValue? digits
  | name => (namedCharacters.find? fun p => p.1 == name).map Prod.snd

/-! ## Parts of tags -/

/-- The text without the white space at its start. -/
def skipBlanks (t : Text) : Text := t.dropWhile isBlank

/-- The name at the start of a text, and what comes after it. -/
def readName? (t : Text) : Option (Text × Text) :=
  let name := t.takeWhile (Text.inRanges nameParts)
  if isName name then some (name, t.dropWhile (Text.inRanges nameParts)) else none

/-- The character that is referred to after an `&`, and what comes after the reference. -/
def readReference? (t : Text) : Option (CodePoint × Text) :=
  match t.dropWhile (· != 0x3B) with
  | [] => none
  | _ :: rest => (reference? (Text.before 0x3B t)).map fun c => (c, rest)

/-- What stands up to the closing quote is a value; white space in it counts as spaces. -/
inductive ReadsValue (quote : CodePoint) : Text → Text → Text → Prop
  | close {rest : Text} : ReadsValue quote (quote :: rest) [] rest
  | char {c : CodePoint} {t value rest : Text} (hc : IsChar c)
      (hmark : c ≠ quote ∧ c ≠ 0x3C ∧ c ≠ 0x26 ∧ c ≠ 0x0D) (h : ReadsValue quote t value rest) :
      ReadsValue quote (c :: t) ((if isBlank c then 0x20 else c) :: value) rest
  | reference {s : Text} {c : CodePoint} {t value rest : Text}
      (hs : readReference? s = some (c, t)) (h : ReadsValue quote t value rest) :
      ReadsValue quote (0x26 :: s) (c :: value) rest

/-- What comes after the name of a tag: attributes with distinct names and the end of the tag, which
may be that of an empty element. -/
inductive ReadsTag : Text → List (Text × Text) → Bool → Text → Prop
  | opening {t rest : Text} (h : skipBlanks t = 0x3E :: rest) : ReadsTag t [] false rest
  | empty {t rest : Text} (h : skipBlanks t = 0x2F :: 0x3E :: rest) : ReadsTag t [] true rest
  | more {blank quote : CodePoint} {t name s s' u value w rest : Text}
      {attributes : List (Text × Text)} {isEmpty : Bool} (hblank : isBlank blank = true)
      (hname : readName? (skipBlanks t) = some (name, s)) (hequals : skipBlanks s = 0x3D :: s')
      (hquote : skipBlanks s' = quote :: u) (hkind : IsQuote quote)
      (hvalue : ReadsValue quote u value w) (h : ReadsTag w attributes isEmpty rest)
      (hnew : name ∉ attributes.map Prod.fst) :
      ReadsTag (blank :: t) ((name, value) :: attributes) isEmpty rest

/-! ## Elements -/

/-- A character of a document, or an element with what it contains. -/
inductive Node
  | char (c : CodePoint)
  | element (name : Text) (attributes : List (Text × Text)) (content : List Node)

namespace Node

/-- The name of an element. -/
def name? : Node → Option Text
  | char _ => none
  | element name _ _ => some name

/-- The value of an attribute of an element. -/
def attribute? (key : Text) : Node → Option Text
  | char _ => none
  | element _ attributes _ => (attributes.find? fun p => p.1 == key).map Prod.snd

/-- What an element contains. -/
def content : Node → List Node
  | char _ => []
  | element _ _ content => content

end Node

/-- The text is at its end, or at an end tag. -/
def AtEnd (t : Text) : Prop := t = [] ∨ ∃ rest, t = 0x3C :: 0x2F :: rest

/-- What stands up to the next end tag, or to the end of the text: characters, references to
characters, and elements. -/
inductive Reads : Text → List Node → Text → Prop
  | done {t : Text} (h : AtEnd t) : Reads t [] t
  | char {c : CodePoint} {t rest : Text} {ns : List Node} (hc : IsChar c)
      (hmark : c ≠ 0x3C ∧ c ≠ 0x26 ∧ c ≠ 0x0D) (hclose : ¬ Text.ofString "]]>" <+: c :: t)
      (h : Reads t ns rest) : Reads (c :: t) (.char c :: ns) rest
  | reference {s : Text} {c : CodePoint} {t rest : Text} {ns : List Node}
      (hs : readReference? s = some (c, t)) (h : Reads t ns rest) :
      Reads (0x26 :: s) (.char c :: ns) rest
  | empty {s name t u rest : Text} {attributes : List (Text × Text)} {ns : List Node}
      (hname : readName? s = some (name, t)) (htag : ReadsTag t attributes true u)
      (h : Reads u ns rest) : Reads (0x3C :: s) (.element name attributes [] :: ns) rest
  | element {s name t u v w x rest : Text} {attributes : List (Text × Text)} {content ns : List Node}
      (hname : readName? s = some (name, t)) (htag : ReadsTag t attributes false u)
      (hcontent : Reads u content (0x3C :: 0x2F :: v)) (hend : readName? v = some (name, w))
      (hclose : skipBlanks w = 0x3E :: x) (h : Reads x ns rest) :
      Reads (0x3C :: s) (.element name attributes content :: ns) rest

/-! ## Documents -/

/-- The declaration of a document of version 1.0 in UTF-8. -/
def IsDeclaration (t : Text) : Prop :=
  ∃ q q', IsQuote q ∧ IsQuote q' ∧ t = Text.concat ["<?xml version=", [q], "1.0", [q],
    " encoding=", [q'], "utf-8", [q'], "?>"]

/-- A well-formed document: a declaration and an element, with nothing but white space after either
of them. -/
inductive ReadsDocument : Text → Node → Prop
  | mk {head body blanks name : Text} {attributes : List (Text × Text)} {content : List Node}
      (hhead : IsDeclaration head) (hblanks : ∀ c ∈ blanks, isBlank c = true)
      (h : Reads (skipBlanks body) (.element name attributes content :: blanks.map .char) []) :
      ReadsDocument (head ++ body) (.element name attributes content)

/-! ## What is read is determined -/

variable {c d quote : CodePoint} {t name value value' rest rest' : Text} {root root' : Node}
  {as as' : List (Text × Text)} {e e' : Bool} {ns ns' : List Node}

theorem not_quote_of_mark : ¬ IsQuote 0x26 := by
  rintro (h | h) <;> cases h

theorem ReadsValue.unique (hq : IsQuote quote) (h : ReadsValue quote t value rest)
    (h' : ReadsValue quote t value' rest') : value = value' ∧ rest = rest' := by
  induction h generalizing value' with
  | close =>
    cases h' with
    | close => exact ⟨rfl, rfl⟩
    | char _ hmark _ => exact absurd rfl hmark.1
    | reference => exact absurd hq not_quote_of_mark
  | char _ hmark _ ih =>
    cases h' with
    | close => exact absurd rfl hmark.1
    | char _ _ h' =>
      obtain ⟨rfl, rfl⟩ := ih h'
      exact ⟨rfl, rfl⟩
    | reference => exact absurd rfl hmark.2.2.1
  | reference hs _ ih =>
    cases h' with
    | close => exact absurd hq not_quote_of_mark
    | char _ hmark _ => exact absurd rfl hmark.2.2.1
    | reference hs' h' =>
      cases hs.symm.trans hs'
      obtain ⟨rfl, rfl⟩ := ih h'
      exact ⟨rfl, rfl⟩

theorem skipBlanks_cons (hc : isBlank c = true) : skipBlanks (c :: t) = skipBlanks t :=
  List.dropWhile_cons_of_pos hc

/-- After a name is read, there is no end of a tag where the name begins. -/
theorem not_close_of_readName? {found : Text × Text} (h : readName? t = some found) :
    (∀ rest, t ≠ 0x3E :: rest) ∧ ∀ rest, t ≠ 0x2F :: rest := by
  constructor <;> rintro rest rfl <;> cases h

theorem ReadsTag.unique (h : ReadsTag t as e rest) (h' : ReadsTag t as' e' rest') :
    as = as' ∧ e = e' ∧ rest = rest' := by
  -- Where one reading ends the tag and the other goes on, a name would begin with `>` or `/`.
  induction h generalizing as' with
  | opening h =>
    cases h' with
    | opening h' =>
      cases h.symm.trans h'
      exact ⟨rfl, rfl, rfl⟩
    | empty h' => cases h.symm.trans h'
    | more hblank hname =>
      rw [skipBlanks_cons hblank] at h
      exact absurd h ((not_close_of_readName? hname).1 _)
  | empty h =>
    cases h' with
    | opening h' => cases h.symm.trans h'
    | empty h' =>
      cases h.symm.trans h'
      exact ⟨rfl, rfl, rfl⟩
    | more hblank hname =>
      rw [skipBlanks_cons hblank] at h
      exact absurd h ((not_close_of_readName? hname).2 _)
  | more hblank hname hequals hquote hkind hvalue _ _ ih =>
    cases h' with
    | opening h' =>
      rw [skipBlanks_cons hblank] at h'
      exact absurd h' ((not_close_of_readName? hname).1 _)
    | empty h' =>
      rw [skipBlanks_cons hblank] at h'
      exact absurd h' ((not_close_of_readName? hname).2 _)
    | more _ hname' hequals' hquote' _ hvalue' h' _ =>
      cases hname.symm.trans hname'
      cases hequals.symm.trans hequals'
      cases hquote.symm.trans hquote'
      obtain ⟨rfl, rfl⟩ := hvalue.unique hkind hvalue'
      obtain ⟨rfl, rfl, rfl⟩ := ih h'
      exact ⟨rfl, rfl, rfl⟩

/-- At an end nothing is read. -/
theorem Reads.of_atEnd (ht : AtEnd t) (h : Reads t ns rest) : ns = [] ∧ rest = t := by
  cases h with
  | done => exact ⟨rfl, rfl⟩
  | char _ hmark =>
    rcases ht with ht | ⟨_, ht⟩
    · cases ht
    · exact absurd (List.cons.inj ht).1 hmark.1
  | reference => rcases ht with ht | ⟨_, ht⟩ <;> cases ht
  | empty hname | element hname =>
    rcases ht with ht | ⟨_, ht⟩
    · cases ht
    · exact absurd (List.cons.inj ht).2 ((not_close_of_readName? hname).2 _)

/-- A text can be read in one way only. -/
theorem Reads.unique (h : Reads t ns rest) (h' : Reads t ns' rest') : ns = ns' ∧ rest = rest' := by
  induction h generalizing ns' rest' with
  | done ht =>
    obtain ⟨rfl, rfl⟩ := h'.of_atEnd ht
    exact ⟨rfl, rfl⟩
  | char hc hmark hclose h ih =>
    cases h' with
    | done ht => cases ((Reads.char hc hmark hclose h).of_atEnd ht).1
    | char _ _ _ h' =>
      obtain ⟨rfl, rfl⟩ := ih h'
      exact ⟨rfl, rfl⟩
    | reference => exact absurd rfl hmark.2.1
    | empty | element => exact absurd rfl hmark.1
  | reference hs h ih =>
    cases h' with
    | done ht => cases ((Reads.reference hs h).of_atEnd ht).1
    | char _ hmark => exact absurd rfl hmark.2.1
    | reference hs' h' =>
      cases hs.symm.trans hs'
      obtain ⟨rfl, rfl⟩ := ih h'
      exact ⟨rfl, rfl⟩
  | empty hname htag h ih =>
    cases h' with
    | done ht => cases ((Reads.empty hname htag h).of_atEnd ht).1
    | char _ hmark => exact absurd rfl hmark.1
    | empty hname' htag' h' =>
      cases hname.symm.trans hname'
      obtain ⟨rfl, -, rfl⟩ := htag.unique htag'
      obtain ⟨rfl, rfl⟩ := ih h'
      exact ⟨rfl, rfl⟩
    | element hname' htag' =>
      cases hname.symm.trans hname'
      cases (htag.unique htag').2.1
  | element hname htag hcontent hend hclose h ihcontent ih =>
    cases h' with
    | done ht => cases ((Reads.element hname htag hcontent hend hclose h).of_atEnd ht).1
    | char _ hmark => exact absurd rfl hmark.1
    | empty hname' htag' =>
      cases hname.symm.trans hname'
      cases (htag.unique htag').2.1
    | element hname' htag' hcontent' hend' hclose' h' =>
      cases hname.symm.trans hname'
      obtain ⟨rfl, -, rfl⟩ := htag.unique htag'
      obtain ⟨rfl, hrest⟩ := ihcontent hcontent'
      cases hrest
      cases hend.symm.trans hend'
      cases hclose.symm.trans hclose'
      obtain ⟨rfl, rfl⟩ := ih h'
      exact ⟨rfl, rfl⟩

theorem IsDeclaration.length_eq (h : IsDeclaration t) : t.length = 38 := by
  obtain ⟨q, q', -, -, rfl⟩ := h
  rfl

/-- A document has one root. -/
theorem ReadsDocument.unique (h : ReadsDocument t root) (h' : ReadsDocument t root') :
    root = root' := by
  cases h with
  | @mk head body _ _ _ _ hhead _ h =>
    generalize ht : head ++ body = t at h'
    cases h' with
    | @mk head' body' _ _ _ _ hhead' _ h' =>
      have hlength : head.length = head'.length := hhead.length_eq.trans hhead'.length_eq.symm
      obtain ⟨-, rfl⟩ := List.append_inj ht hlength
      exact (List.cons.inj (h.unique h').1).1

/-! ## Sound texts -/

/-- Every code point of the text may stand in a document, and every `&` begins a reference. -/
inductive Sound : Text → Prop
  | nil : Sound []
  | cons {c : CodePoint} {t : Text} (hc : IsChar c)
      (href : c = 0x26 → (readReference? t).isSome = true) (h : Sound t) : Sound (c :: t)

/-- The code points that may stand in a document by themselves, which `&` may not. -/
def ordinary : List (Nat × Nat) :=
  [(0x09, 0x0A), (0x0D, 0x0D), (0x20, 0x25), (0x27, 0xD7FF), (0xE000, 0xFFFD), (0x10000, 0x10FFFF)]

/-- The code point may stand in a document by itself. -/
def IsOrdinary (c : CodePoint) : Prop := Text.inRanges ordinary c = true

instance (c : CodePoint) : Decidable (IsOrdinary c) := inferInstanceAs (Decidable (_ = true))

theorem inRanges_of_within {ranges ranges' : List (Nat × Nat)}
    (hwithin : ∀ r ∈ ranges, ∃ r' ∈ ranges', r'.1 ≤ r.1 ∧ r.2 ≤ r'.2)
    (hc : Text.inRanges ranges c = true) : Text.inRanges ranges' c = true := by
  obtain ⟨r, hr, hc⟩ := List.any_eq_true.1 hc
  obtain ⟨r', hr', hlow, hhigh⟩ := hwithin r hr
  rw [Bool.and_eq_true, decide_eq_true_eq, decide_eq_true_eq] at hc
  refine List.any_eq_true.2 ⟨r', hr', ?_⟩
  rw [Bool.and_eq_true, decide_eq_true_eq, decide_eq_true_eq]
  exact ⟨Nat.le_trans hlow hc.1, Nat.le_trans hc.2 hhigh⟩

theorem IsOrdinary.isChar (hc : IsOrdinary c) : IsChar c := inRanges_of_within (by decide) hc

theorem IsOrdinary.ne_ampersand (hc : IsOrdinary c) : c ≠ 0x26 := by
  rintro rfl
  cases hc

theorem isOrdinary_of_isBlank (hc : isBlank c = true) : IsOrdinary c :=
  inRanges_of_within (by decide) hc

theorem isOrdinary_of_namePart (hc : Text.inRanges nameParts c = true) : IsOrdinary c :=
  inRanges_of_within (by decide) hc

theorem isOrdinary_of_isHexDigit (hc : Bytes.IsHexDigit c) : IsOrdinary c := by
  have hdigits : Text.inRanges [(0x30, 0x39), (0x61, 0x66), (0x41, 0x46)] c = true := by
    simpa [Text.inRanges, Bytes.IsHexDigit] using hc
  exact inRanges_of_within (by decide) hdigits

theorem isHexDigit_of_isDigit (hc : Text.isDigit c = true) : Bytes.IsHexDigit c := by
  rw [Text.isDigit, Bool.and_eq_true, decide_eq_true_eq, decide_eq_true_eq] at hc
  exact .inl hc

theorem IsQuote.isOrdinary (h : IsQuote quote) : IsOrdinary quote := by
  rcases h with rfl | rfl <;> decide

theorem isOrdinary_of_numbered? {base : Nat} {value? : CodePoint → Option Nat}
    (hvalue : ∀ d, (value? d).isSome = true → IsOrdinary d) (h : numbered? base value? t = some c)
    (hd : d ∈ t) : IsOrdinary d := by
  simp only [numbered?, Option.ite_none_right_eq_some] at h
  exact hvalue d (h.1.2.1 d hd)

/-- Nothing in a reference is itself special. -/
theorem isOrdinary_of_reference? (h : reference? t = some c) (hd : d ∈ t) : IsOrdinary d := by
  have hhex : ∀ d, (Text.hexValue? d).isSome = true → IsOrdinary d := fun d hd =>
    isOrdinary_of_isHexDigit (Bytes.isSome_hexValue?_iff.1 hd)
  have hdecimal : ∀ d, (decimalValue? d).isSome = true → IsOrdinary d := by
    intro d hd
    unfold decimalValue? at hd
    split at hd
    · next hdigit => exact isOrdinary_of_isHexDigit (isHexDigit_of_isDigit hdigit)
    · cases hd
  unfold reference? at h
  split at h
  · rcases List.mem_cons.1 hd with rfl | hd
    · decide
    rcases List.mem_cons.1 hd with rfl | hd
    · decide
    · exact isOrdinary_of_numbered? hhex h hd
  · rcases List.mem_cons.1 hd with rfl | hd
    · decide
    · exact isOrdinary_of_numbered? hdecimal h hd
  · obtain ⟨p, hp, -⟩ := Option.map_eq_some_iff.1 h
    have hnames : ∀ p ∈ namedCharacters, ∀ d ∈ p.1, IsOrdinary d := by decide
    have hname := List.find?_some hp
    obtain rfl := beq_iff_eq.1 hname
    exact hnames p (List.mem_of_find?_eq_some hp) d hd

theorem Sound.isChar (h : Sound t) (hc : c ∈ t) : IsChar c := by
  induction h with
  | nil => cases hc
  | cons hd _ _ ih => exact (List.mem_cons.1 hc).elim (fun h => h ▸ hd) ih

theorem Sound.of_append {start : Text} (h : Sound (start ++ t)) : Sound t := by
  induction start with
  | nil => exact h
  | cons c start ih =>
    cases h with
    | cons _ _ h => exact ih h

theorem Sound.isSome_readReference? {start : Text} (h : Sound (start ++ 0x26 :: t)) :
    (readReference? t).isSome = true := by
  cases h.of_append with
  | cons _ href _ => exact href rfl

theorem Sound.cons_ordinary (hc : IsOrdinary c) (h : Sound t) : Sound (c :: t) :=
  .cons hc.isChar (fun heq => absurd heq hc.ne_ampersand) h

theorem Sound.append {start : Text} (hstart : ∀ c ∈ start, IsOrdinary c) (h : Sound t) :
    Sound (start ++ t) := by
  induction start with
  | nil => exact h
  | cons c start ih =>
    obtain ⟨hc, hstart⟩ := List.forall_mem_cons.1 hstart
    exact (ih hstart).cons_ordinary hc

theorem sound_of_skipBlanks (h : Sound (skipBlanks t)) : Sound t := by
  have hblanks : ∀ c ∈ t.takeWhile isBlank, IsOrdinary c := fun c hc =>
    isOrdinary_of_isBlank (List.mem_takeWhile_imp hc)
  rw [← List.takeWhile_append_dropWhile (p := isBlank) (l := t)]
  exact h.append hblanks

theorem sound_of_readName? (hname : readName? t = some (name, rest)) (h : Sound rest) :
    Sound t := by
  have hparts : ∀ c ∈ t.takeWhile (Text.inRanges nameParts), IsOrdinary c := fun c hc =>
    isOrdinary_of_namePart (List.mem_takeWhile_imp hc)
  rw [← List.takeWhile_append_dropWhile (p := Text.inRanges nameParts) (l := t)]
  rw [readName?, Option.ite_none_right_eq_some] at hname
  cases hname.2
  exact h.append hparts

theorem sound_of_readReference? (href : readReference? t = some (c, rest)) (h : Sound rest) :
    Sound (0x26 :: t) := by
  refine .cons (by decide) (fun _ => Option.isSome_iff_exists.2 ⟨_, href⟩) ?_
  have hsplit := List.takeWhile_append_dropWhile (p := (· != 0x3B)) (l := t)
  have hend := List.head?_dropWhile_not (· != 0x3B) t
  unfold readReference? at href
  split at href
  · cases href
  · next mark rest' heq =>
    obtain ⟨c', hbody, hfound⟩ := Option.map_eq_some_iff.1 href
    cases hfound
    rw [heq] at hend hsplit
    obtain rfl : mark = 0x3B := by simpa using hend
    rw [← hsplit]
    exact (h.cons_ordinary (by decide)).append fun d => isOrdinary_of_reference? hbody

theorem ReadsValue.sound (hq : IsQuote quote) (h : ReadsValue quote t value rest)
    (hrest : Sound rest) : Sound t := by
  induction h with
  | close => exact hrest.cons_ordinary hq.isOrdinary
  | char hc hmark _ ih => exact .cons hc (fun heq => absurd heq hmark.2.2.1) (ih hrest)
  | reference hs _ ih => exact sound_of_readReference? hs (ih hrest)

theorem ReadsTag.sound (h : ReadsTag t as e rest) (hrest : Sound rest) : Sound t := by
  induction h with
  | opening h =>
    refine sound_of_skipBlanks (h ▸ ?_)
    exact hrest.cons_ordinary (by decide)
  | empty h =>
    refine sound_of_skipBlanks (h ▸ ?_)
    exact (hrest.cons_ordinary (by decide)).cons_ordinary (by decide)
  | more hblank hname hequals hquote hkind hvalue _ _ ih =>
    have hs' := sound_of_skipBlanks
      (hquote ▸ (hvalue.sound hkind (ih hrest)).cons_ordinary hkind.isOrdinary)
    have hs := sound_of_skipBlanks (hequals ▸ hs'.cons_ordinary (by decide))
    exact (sound_of_skipBlanks (sound_of_readName? hname hs)).cons_ordinary
      (isOrdinary_of_isBlank hblank)

theorem Reads.sound (h : Reads t ns rest) (hrest : Sound rest) : Sound t := by
  induction h with
  | done => exact hrest
  | char hc hmark _ _ ih => exact .cons hc (fun heq => absurd heq hmark.2.1) (ih hrest)
  | reference hs _ ih => exact sound_of_readReference? hs (ih hrest)
  | empty hname htag _ ih =>
    exact (sound_of_readName? hname (htag.sound (ih hrest))).cons_ordinary (by decide)
  | element hname htag _ hend hclose _ ihcontent ih =>
    -- From behind: the end tag, then what the element contains, then its first tag.
    have hclosing := sound_of_skipBlanks (hclose ▸ (ih hrest).cons_ordinary (by decide))
    have hend := (sound_of_readName? hend hclosing).cons_ordinary (c := 0x2F) (by decide)
    have hcontent := ihcontent (hend.cons_ordinary (by decide))
    exact (sound_of_readName? hname (htag.sound hcontent)).cons_ordinary (by decide)

theorem IsDeclaration.isOrdinary (h : IsDeclaration t) (hc : c ∈ t) : IsOrdinary c := by
  obtain ⟨q, q', hq, hq', rfl⟩ := h
  rcases hq with rfl | rfl <;> rcases hq' with rfl | rfl <;> revert c <;> decide

/-- A document is sound. -/
theorem ReadsDocument.sound (h : ReadsDocument t root) : Sound t := by
  cases h with
  | mk hhead _ h => exact (sound_of_skipBlanks (h.sound .nil)).append fun c => hhead.isOrdinary

end XofConformance.Xml
