import Mathlib.Data.List.Forall2
import XofConformance.Proofs.Json.Reading
import XofConformance.Proofs.Xml.Grammar
import XofConformance.Xml

/-!
# Written elements

What is escaped is read back: a code point is written as itself where it is not special, and else as
a reference to it. So an element whose names are names and whose values and text hold nothing but
characters is read as it was, whatever comes after it; elements are put together from their children.

    the children spell their nodes → the element spells the node of them     (spells_element)
    Spells (writeElement root) n → ReadsDocument (document root) n    (Spells.readsDocument_document)

Whatever is written, a document that can be read was written in characters only: a code point that
is none stays as it is, and a lone surrogate is referred to, which is no better.

    ReadsDocument (document root) n → ∀ c ∈ writeElement root, IsChar c
                                                            (isChar_of_readsDocument_document)
-/

namespace XofConformance.Xml

variable {c : CodePoint} {body name rest t u value : Text} {as : List (Text × Text)} {e : Bool}
  {ns : List Node} {n : Node}

/-! ## References -/

theorem isChar_of_isPlain (hc : Text.IsPlain c) : IsChar c := by
  have hrange : Text.inRanges [(0x20, 0x7E)] c = true := by
    simpa [Text.inRanges, Text.IsPlain] using hc
  exact inRanges_of_within (by decide) hrange

/-- Between `&` and `;` the text refers to the character. -/
def Refers (body : Text) (c : CodePoint) : Prop := 0x3B ∉ body ∧ reference? body = some c

instance (body : Text) (c : CodePoint) : Decidable (Refers body c) :=
  inferInstanceAs (Decidable (_ ∧ _))

theorem readReference?_append (hbody : 0x3B ∉ body) :
    readReference? (body ++ 0x3B :: t) = (reference? body).map fun c => (c, t) := by
  have hall : ∀ d ∈ body, (d != 0x3B) = true := fun d hd =>
    bne_iff_ne.2 fun heq => hbody (heq ▸ hd)
  have hdrop : (body ++ 0x3B :: t).dropWhile (· != 0x3B) = 0x3B :: t := by
    rw [List.dropWhile_append_of_pos hall]
    rfl
  have htake : Text.before 0x3B (body ++ 0x3B :: t) = body := by
    rw [Text.before, List.takeWhile_append_of_pos hall]
    exact List.append_nil body
  simp only [readReference?, hdrop, htake]

theorem Refers.readReference?_eq (h : Refers body c) :
    readReference? (body ++ 0x3B :: t) = some (c, t) := by
  rw [readReference?_append h.1, h.2]
  rfl

/-- A code point is written in a text as itself if it is not special, and else as a reference. -/
theorem escapeText_cases (c : CodePoint) :
    (escapeText c = [c] ∧ c ≠ 0x26 ∧ c ≠ 0x3C ∧ c ≠ 0x3E) ∨
      ∃ body, Refers body c ∧ escapeText c = 0x26 :: (body ++ [0x3B]) := by
  unfold escapeText
  split
  · next h => exact .inr ⟨"amp", h ▸ by decide, rfl⟩
  split
  · next h => exact .inr ⟨"lt", h ▸ by decide, rfl⟩
  split
  · next h => exact .inr ⟨"gt", h ▸ by decide, rfl⟩
  · next hamp hlt hgt => exact .inl ⟨rfl, hamp, hlt, hgt⟩

theorem escapeAttribute_cases (c : CodePoint) :
    (escapeAttribute c = [c] ∧ (c ≠ 0x22 ∧ c ≠ 0x3C ∧ c ≠ 0x26 ∧ c ≠ 0x0D) ∧ c ≠ 0x0A ∧ c ≠ 0x09) ∨
      ∃ body, Refers body c ∧ escapeAttribute c = 0x26 :: (body ++ [0x3B]) := by
  unfold escapeAttribute
  split
  · next h => exact .inr ⟨"quot", h ▸ by decide, rfl⟩
  split
  · next h => exact .inr ⟨"#13", h ▸ by decide, rfl⟩
  split
  · next h => exact .inr ⟨"#10", h ▸ by decide, rfl⟩
  split
  · next h => exact .inr ⟨"#09", h ▸ by decide, rfl⟩
  · next hquote hreturn hfeed htab =>
    refine (escapeText_cases c).imp_left fun ⟨heq, hamp, hlt, _⟩ => ?_
    exact ⟨heq, ⟨hquote, hlt, hamp, hreturn⟩, hfeed, htab⟩

theorem Refers.isChar (h : Refers body c) : IsChar c := by
  have hnumber : ∀ {base : Nat} {value? : CodePoint → Option Nat} {t : Text},
      numbered? base value? t = some c → IsChar c := by
    intro base value? t h
    simp only [numbered?, Option.ite_none_right_eq_some] at h
    cases h.2
    exact h.1.2.2
  have hnamed : ∀ p ∈ namedCharacters, IsChar p.2 := by decide
  have h := h.2
  unfold reference? at h
  split at h
  · exact hnumber h
  · exact hnumber h
  · obtain ⟨p, hp, rfl⟩ := Option.map_eq_some_iff.1 h
    exact hnamed p (List.mem_of_find?_eq_some hp)

/-! ## Attributes -/

/-- The first code point of a text, if it has one, is no part of a name. -/
def EndsName (t : Text) : Prop := ∀ c ∈ t.head?, Text.inRanges nameParts c = false

theorem endsName_cons (hc : Text.inRanges nameParts c = false) : EndsName (c :: t) := fun _ hd =>
  Option.mem_some.1 hd ▸ hc

theorem readName?_append (hname : isName name = true) (ht : EndsName t) :
    readName? (name ++ t) = some (name, t) := by
  have hparts : ∀ c ∈ name, Text.inRanges nameParts c = true := by
    cases name with
    | nil => exact nofun
    | cons c name =>
      rw [isName, Bool.and_eq_true, List.all_eq_true] at hname
      exact List.forall_mem_cons.2 ⟨inRanges_of_within (by decide) hname.1, hname.2⟩
  have hend : t.takeWhile (Text.inRanges nameParts) = [] ∧
      t.dropWhile (Text.inRanges nameParts) = t := by
    cases t with
    | nil => exact ⟨rfl, rfl⟩
    | cons c t =>
      have hc : ¬ Text.inRanges nameParts c = true := by
        rw [ht c rfl]
        exact Bool.false_ne_true
      exact ⟨List.takeWhile_cons_of_neg hc, List.dropWhile_cons_of_neg hc⟩
  simp only [readName?, List.takeWhile_append_of_pos hparts, List.dropWhile_append_of_pos hparts,
    hend.1, hend.2, List.append_nil, hname, if_true]

theorem skipBlanks_name (hname : isName name = true) : skipBlanks (name ++ t) = name ++ t := by
  cases name with
  | nil => cases hname
  | cons c name =>
    rw [isName, Bool.and_eq_true] at hname
    refine List.dropWhile_cons_of_neg fun hblank => ?_
    rcases isBlank_iff.1 hblank with rfl | rfl | rfl | rfl <;> cases hname.1

/-- An escaped value is read up to the quote. -/
theorem readsValue_escaped (hvalue : ∀ c ∈ value, IsChar c) :
    ReadsValue 0x22 (value.flatMap escapeAttribute ++ 0x22 :: rest) value rest := by
  induction value with
  | nil => exact .close
  | cons c value ih =>
    obtain ⟨hc, hvalue⟩ := List.forall_mem_cons.1 hvalue
    rw [List.flatMap_cons, List.append_assoc]
    obtain ⟨heq, hmark, hblanks⟩ | ⟨body, hrefers, heq⟩ := escapeAttribute_cases c
    · have hchar : (if isBlank c then 0x20 else c) = c := by
        split
        · next hblank =>
          rcases isBlank_iff.1 hblank with rfl | rfl | rfl | rfl
          · rfl
          · exact absurd rfl hblanks.2
          · exact absurd rfl hblanks.1
          · exact absurd rfl hmark.2.2.2
        · rfl
      have hread := ReadsValue.char hc hmark (ih hvalue)
      rw [hchar] at hread
      rw [heq]
      exact hread
    · rw [heq, List.cons_append, List.append_assoc]
      exact .reference hrefers.readReference?_eq (ih hvalue)

theorem Attribute.write_ofText : (Attribute.ofText name value).write =
    0x20 :: (name ++ 0x3D :: 0x22 :: (value.flatMap escapeAttribute ++ [0x22])) := by
  simp [Attribute.write, Attribute.ofText, Text.concat, Text.ofString]

theorem Attribute.write_append : (Attribute.ofText name value).write ++ t =
    0x20 :: (name ++ 0x3D :: 0x22 :: (value.flatMap escapeAttribute ++ 0x22 :: t)) := by
  rw [write_ofText]
  simp

/-- The attributes have distinct names, and their values hold nothing but characters. -/
structure AreAttributes (as : List (Text × Text)) : Prop where
  named : ∀ p ∈ as, isName p.1 = true
  distinct : (as.map Prod.fst).Nodup
  legal : ∀ p ∈ as, ∀ c ∈ p.2, IsChar c

theorem areAttributes_of_keys (keys : List Text) (hkeys : as.map Prod.fst = keys)
    (hnamed : ∀ k ∈ keys, isName k = true) (hdistinct : keys.Nodup)
    (hlegal : ∀ p ∈ as, ∀ c ∈ p.2, IsChar c) : AreAttributes as := by
  subst hkeys
  exact ⟨List.forall_mem_map.1 hnamed, hdistinct, hlegal⟩

/-- The attributes with their values in written form. -/
def written (as : List (Text × Text)) : List Attribute := as.map fun p => .ofText p.1 p.2

/-- Attributes are read before the end of the tag. -/
theorem readsTag_attributes (has : AreAttributes as) (h : ReadsTag t [] e rest) :
    ReadsTag ((written as).flatMap Attribute.write ++ t) as e rest := by
  induction as with
  | nil => exact h
  | cons p as ih =>
    obtain ⟨hnamed, hdistinct, hlegal⟩ := has
    obtain ⟨hname, hnamed⟩ := List.forall_mem_cons.1 hnamed
    obtain ⟨hnew, hdistinct⟩ := List.nodup_cons.1 hdistinct
    obtain ⟨hvalue, hlegal⟩ := List.forall_mem_cons.1 hlegal
    have hends : EndsName (0x3D :: 0x22 :: (p.2.flatMap escapeAttribute ++ 0x22 ::
        ((written as).flatMap Attribute.write ++ t))) := endsName_cons rfl
    have hread := readName?_append hname hends
    rw [← skipBlanks_name hname] at hread
    rw [written, List.map_cons, List.flatMap_cons, List.append_assoc, Attribute.write_append]
    exact .more rfl hread rfl rfl (.inl rfl) (readsValue_escaped hvalue)
      (ih ⟨hnamed, hdistinct, hlegal⟩) hnew

/-! ## Text -/

theorem not_mem_flatMap_escapeText : 0x3E ∉ t.flatMap escapeText := by
  intro h
  obtain ⟨c, -, hc⟩ := List.mem_flatMap.1 h
  unfold escapeText at hc
  split at hc
  · exact absurd hc (by decide)
  split at hc
  · exact absurd hc (by decide)
  split at hc
  · exact absurd hc (by decide)
  · next hgt => exact hgt (List.mem_singleton.1 hc).symm

/-- Where no `>` stands before the next tag, no CDATA section is closed. -/
theorem not_closes (h : 0x3E ∉ t) : ¬ Text.ofString "]]>" <+: t ++ 0x3C :: rest := by
  rintro ⟨s, hs⟩
  match t, h with
  | [], _ => cases (List.cons.inj hs).1
  | [_], _ => cases (List.cons.inj (List.cons.inj hs).2).1
  | [_, _], _ => cases (List.cons.inj (List.cons.inj (List.cons.inj hs).2).2).1
  | a :: b :: c :: t, h =>
    obtain rfl : 0x3E = c := (List.cons.inj (List.cons.inj (List.cons.inj hs).2).2).1
    exact h (by simp)

/-- Escaped text is read up to the next tag. -/
theorem reads_text (htext : ∀ c ∈ t, IsChar c ∧ c ≠ 0x0D) (h : Reads (0x3C :: rest) ns u) :
    Reads (t.flatMap escapeText ++ 0x3C :: rest) (t.map .char ++ ns) u := by
  induction t with
  | nil => exact h
  | cons c t ih =>
    obtain ⟨⟨hc, hreturn⟩, htext⟩ := List.forall_mem_cons.1 htext
    rw [List.flatMap_cons, List.append_assoc]
    obtain ⟨heq, hamp, hlt, hgt⟩ | ⟨body, hrefers, heq⟩ := escapeText_cases c
    · -- `>` is always escaped, so what is written has no end of a CDATA section in it
      have hclose : 0x3E ∉ c :: t.flatMap escapeText := fun hmem =>
        (List.mem_cons.1 hmem).elim (fun h => hgt h.symm) not_mem_flatMap_escapeText
      rw [heq]
      exact .char hc ⟨hlt, hamp, hreturn⟩ (not_closes hclose) (ih htext)
    · rw [heq, List.cons_append, List.append_assoc]
      exact .reference hrefers.readReference?_eq (ih htext)

/-! ## Elements -/

/-- Whatever can be read after the text, what the text spells is read before it. -/
structure Spells (w : Text) (n : Node) : Prop where
  reads : ∀ {rest u : Text} {ns : List Node}, Reads rest ns u → Reads (w ++ rest) (n :: ns) u

theorem spells_flatten {ws : List Text} {nodes : List Node} (h : List.Forall₂ Spells ws nodes)
    (hrest : Reads rest ns u) : Reads (ws.flatten ++ rest) (nodes ++ ns) u := by
  induction h with
  | nil => exact hrest
  | cons hw _ ih =>
    rw [List.flatten_cons, List.append_assoc]
    exact hw.reads ih

theorem writeElements_eq (es : List Element) : writeElements es = (es.map writeElement).flatten := by
  induction es with
  | nil => rfl
  | cons e es ih => rw [writeElements, ih, List.map_cons, List.flatten_cons]

variable {text : Text} {children : List Element} {nodes content : List Node} {root : Element}

/-- The start of an element, up to the end of its first tag. -/
def opening (name : Text) (as : List (Text × Text)) (rest : Text) : Text :=
  0x3C :: (name ++ ((written as).flatMap Attribute.write ++ rest))

theorem writeElement_empty : writeElement (.mk name (written as) [] []) =
    opening name as (Text.ofString " />") := by
  simp [writeElement, opening, Text.concat, Text.ofString]

theorem writeElement_full (h : (text.isEmpty && children.isEmpty) = false) :
    writeElement (.mk name (written as) text children) =
      opening name as (0x3E :: (text.flatMap escapeText ++ ((children.map writeElement).flatten ++
        0x3C :: 0x2F :: (name ++ [0x3E])))) := by
  rw [writeElement, h, writeElements_eq]
  simp [opening, Text.concat, Text.ofString]

theorem exists_writeElement (e : Element) : ∃ t, writeElement e = 0x3C :: t := by
  cases e with
  | mk name attributes text children =>
    rw [writeElement]
    simp only [Text.concat, List.flatten_cons, List.flatten_nil, Text.ofString]
    split <;> exact ⟨_, rfl⟩

/-- After the text of an element comes a tag, of a child or its own. -/
theorem exists_flatten_writeElement (es : List Element) (rest : Text) :
    ∃ t, (es.map writeElement).flatten ++ 0x3C :: rest = 0x3C :: t := by
  cases es with
  | nil => exact ⟨_, rfl⟩
  | cons e es =>
    obtain ⟨t, ht⟩ := exists_writeElement e
    rw [List.map_cons, List.flatten_cons, ht]
    exact ⟨_, rfl⟩

theorem opening_append : opening name as t ++ rest = opening name as (t ++ rest) := by
  simp [opening]

theorem readName?_opening (hname : isName name = true) (ht : EndsName t) :
    readName? (name ++ ((written as).flatMap Attribute.write ++ t)) =
      some (name, (written as).flatMap Attribute.write ++ t) := by
  refine readName?_append hname ?_
  cases as with
  | nil => exact ht
  | cons p as =>
    rw [written, List.map_cons, List.flatMap_cons, Attribute.write_ofText]
    exact endsName_cons rfl

/-- An element is spelled by what it is written as, if its children are. -/
theorem spells_element (hname : isName name = true) (has : AreAttributes as)
    (htext : ∀ c ∈ text, IsChar c ∧ c ≠ 0x0D)
    (hchildren : List.Forall₂ Spells (children.map writeElement) nodes) :
    Spells (writeElement (.mk name (written as) text children))
      (.element name as (text.map .char ++ nodes)) := by
  refine ⟨fun {rest u ns} h => ?_⟩
  -- without text and children there is one tag only
  by_cases hempty : (text.isEmpty && children.isEmpty) = true
  · rw [Bool.and_eq_true, List.isEmpty_iff, List.isEmpty_iff] at hempty
    obtain ⟨rfl, rfl⟩ := hempty
    cases hchildren
    rw [writeElement_empty, opening_append]
    exact .empty (readName?_opening hname (endsName_cons rfl))
      (readsTag_attributes has (.empty rfl)) h
  · have hclosing : Reads (0x3C :: 0x2F :: (name ++ 0x3E :: rest)) []
        (0x3C :: 0x2F :: (name ++ 0x3E :: rest)) := .done (.inr ⟨_, rfl⟩)
    have hcontent := spells_flatten hchildren hclosing
    obtain ⟨t, ht⟩ := exists_flatten_writeElement children (0x2F :: (name ++ 0x3E :: rest))
    rw [ht, List.append_nil] at hcontent
    rw [writeElement_full (Bool.eq_false_iff.2 hempty), opening_append, List.cons_append,
      List.append_assoc, List.append_assoc, List.cons_append, List.cons_append, List.append_assoc,
      List.singleton_append, ht]
    exact .element (readName?_opening hname (endsName_cons rfl))
      (readsTag_attributes has (.opening rfl)) (reads_text htext hcontent)
      (readName?_append hname (endsName_cons rfl)) rfl h

/-- An element without children. -/
theorem spells_leaf (hname : isName name = true) (has : AreAttributes as)
    (htext : ∀ c ∈ text, IsChar c ∧ c ≠ 0x0D) :
    Spells (writeElement (.mk name (written as) text [])) (.element name as (text.map .char)) := by
  rw [← List.append_nil (text.map Node.char)]
  exact spells_element hname has htext .nil

/-- An element without text. -/
theorem spells_parent (hname : isName name = true) (has : AreAttributes as)
    (hchildren : List.Forall₂ Spells (children.map writeElement) nodes) :
    Spells (writeElement (.mk name (written as) [] children)) (.element name as nodes) :=
  spells_element hname has (List.forall_mem_nil _) hchildren

/-! ## Documents -/

theorem not_isChar_of_isSurrogate (hc : Text.IsSurrogate c) : ¬ IsChar c := by
  obtain ⟨hlow, hhigh⟩ := hc
  intro h
  obtain ⟨r, hr, h⟩ := List.any_eq_true.1 h
  have hapart : ∀ r ∈ characters, r.2 < 0xD800 ∨ 0xDFFF < r.1 := by decide
  rw [Bool.and_eq_true, decide_eq_true_eq, decide_eq_true_eq] at h
  rcases hapart r hr with hr | hr
  · exact absurd (Nat.le_trans hlow h.2) (Nat.not_le_of_lt hr)
  · exact absurd (Nat.le_trans h.1 hhigh) (Nat.not_le_of_lt hr)

/-- No reference by number refers to what is no character. -/
theorem reference?_ofNat (hc : ¬ IsChar c) : reference? (0x23 :: Text.ofNat c) = none := by
  have hvalue : Text.digitsValue 10 (fun d => (decimalValue? d).getD 0) (Text.ofNat c) = c := by
    refine Eq.trans ?_ (Text.decimalValue_ofNat c)
    refine List.foldl_ext _ _ _ fun n d hd => ?_
    simp only [decimalValue?, Text.isDigit_of_mem_ofNat hd, if_true, Option.getD_some]
  have hnumber : numbered? 10 decimalValue? (Text.ofNat c) = none := by
    simp only [numbered?, hvalue, hc, and_false, if_false]
  obtain ⟨d, ds, heq, hd⟩ := Text.exists_ofNat_eq_cons c
  rw [heq] at hnumber ⊢
  have hx : d ≠ 0x78 := Text.ne_of_isDigit hd rfl
  simpa [reference?, hx] using hnumber

theorem flatMap_referSurrogate (ht : ∀ c ∈ t, IsChar c) : t.flatMap referSurrogate = t := by
  induction t with
  | nil => rfl
  | cons c t ih =>
    obtain ⟨hc, ht⟩ := List.forall_mem_cons.1 ht
    have hscalar : ¬ Text.IsSurrogate c := fun h => not_isChar_of_isSurrogate h hc
    rw [List.flatMap_cons, referSurrogate, if_neg hscalar, ih ht, List.singleton_append]

theorem exists_isDeclaration : ∃ head, IsDeclaration head ∧ declaration = head ++ [0x0A] :=
  ⟨_, ⟨0x27, 0x27, .inr rfl, .inr rfl, rfl⟩, rfl⟩

/-- What an element is read as is the root of its document. -/
theorem Spells.readsDocument_document
    (h : Spells (writeElement root) (.element name as content)) :
    ReadsDocument (document root) (.element name as content) := by
  have hread := h.reads (.done (.inl rfl))
  rw [List.append_nil] at hread
  have hplain : ∀ c ∈ writeElement root, IsChar c := fun c => (hread.sound .nil).isChar
  obtain ⟨t, ht⟩ := exists_writeElement root
  have hskip : skipBlanks (0x0A :: writeElement root) = writeElement root := by
    rw [ht]
    rfl
  obtain ⟨head, hhead, hdeclaration⟩ := exists_isDeclaration
  rw [document, flatMap_referSurrogate hplain, hdeclaration, List.append_assoc]
  rw [← hskip] at hread
  exact .mk hhead (List.forall_mem_nil _) hread

/-- A document that can be read was written in characters. -/
theorem isChar_of_readsDocument_document (h : ReadsDocument (document root) n)
    (hc : c ∈ writeElement root) : IsChar c := by
  by_cases hs : Text.IsSurrogate c
  · -- it is referred to by its number, and that is the number of no character
    exfalso
    have hnot := not_isChar_of_isSurrogate hs
    obtain ⟨before, after, hsplit⟩ := List.append_of_mem hc
    have hdocument : document root = (declaration ++ before.flatMap referSurrogate) ++
        0x26 :: (0x23 :: Text.ofNat c ++ 0x3B :: after.flatMap referSurrogate) := by
      rw [document, hsplit, List.flatMap_append, List.flatMap_cons, referSurrogate, if_pos hs]
      simp [Text.concat, Text.ofString]
    have hbody : 0x3B ∉ 0x23 :: Text.ofNat c := by
      rw [List.mem_cons, not_or]
      exact ⟨by decide, fun hmem => absurd (Text.isDigit_of_mem_ofNat hmem) (by decide)⟩
    have href := (hdocument ▸ h.sound).isSome_readReference?
    rw [readReference?_append hbody, reference?_ofNat hnot] at href
    cases href
  · have hmem : c ∈ (writeElement root).flatMap referSurrogate :=
      List.mem_flatMap.2 ⟨c, hc, by rw [referSurrogate, if_neg hs]; exact List.mem_singleton_self c⟩
    exact h.sound.isChar (List.mem_append_right _ hmem)

/-! ## Where values stand -/

theorem mem_escapeAttribute_of_not_isChar (hc : ¬ IsChar c) : c ∈ escapeAttribute c := by
  obtain ⟨heq, -⟩ | ⟨body, hrefers, -⟩ := escapeAttribute_cases c
  · rw [heq]
    exact List.mem_singleton_self c
  · exact absurd hrefers.isChar hc

theorem mem_writeElement_of_mem_attribute {attributes : List Attribute} {a : Attribute}
    (ha : a ∈ attributes) (hc : c ∈ a.written) :
    c ∈ writeElement (.mk name attributes text children) := by
  have hwritten : c ∈ attributes.flatMap Attribute.write := by
    refine List.mem_flatMap.2 ⟨a, ha, ?_⟩
    simp [Attribute.write, Text.concat, hc]
  rw [writeElement]
  split <;> simp [Text.concat, hwritten]

theorem mem_writeElement_of_mem_child {attributes : List Attribute} {child : Element}
    (hchild : child ∈ children) (hc : c ∈ writeElement child) :
    c ∈ writeElement (.mk name attributes text children) := by
  have hwritten : c ∈ writeElements children := by
    rw [writeElements_eq]
    exact List.mem_flatten.2 ⟨_, List.mem_map_of_mem hchild, hc⟩
  have hempty : children.isEmpty = false := by
    rw [List.isEmpty_eq_false_iff]
    exact List.ne_nil_of_mem hchild
  rw [writeElement, hempty, Bool.and_false]
  simp [Text.concat, hwritten]

/-- What is no character stays in the written value of an attribute. -/
theorem isChar_of_forall_writeElement {attributes : List Attribute}
    (h : ∀ c ∈ writeElement (.mk name attributes text children), IsChar c) {key : Text}
    (ha : Attribute.ofText key value ∈ attributes) : ∀ c ∈ value, IsChar c := by
  intro c hc
  by_contra hnot
  refine hnot (h c (mem_writeElement_of_mem_attribute ha ?_))
  exact List.mem_flatMap.2 ⟨c, hc, mem_escapeAttribute_of_not_isChar hnot⟩

end XofConformance.Xml
