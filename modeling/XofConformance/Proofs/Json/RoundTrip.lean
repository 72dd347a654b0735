import Mathlib.Data.List.Forall2
import Mathlib.Data.List.Nodup
import XofConformance.Proofs.Json.Escapes
import XofConformance.Proofs.Json.Reading
import XofConformance.Proofs.Lists
import XofConformance.Proofs.Number.Written

/-!
# Reading what was written

A text spells a value if the value is read from it, whatever comes after it. Texts that spell the
items of an array or the fields of an object spell the array or the object when they are written
between brackets, with blanks between them; so a value is spelled by what it is written as, in every
style whose gaps are blank, if its numbers are integers and no object has a key twice.

    Writable v → Spells (writeAt style depth v) v.reread                        (spells_writeAt)

What is written is plain except for the blanks of the style (`forall_mem_writeAt`), so it is ASCII,
and one line if the style has no line breaks. Texts of scalar values, and what is made of them, come
back as they were.
-/

namespace XofConformance.Json

variable {rest gap blank w t key : Text} {ws : List Text} {v : Json} {vs : List Json}
  {p : Text × Json} {ps : List (Text × Json)} {c : CodePoint} {fuel : Nat}

/-! ## Blanks -/

/-- Nothing but spaces. -/
def IsBlank (t : Text) : Prop := ∀ c ∈ t, isSpace c = true

/-- What a style puts between the parts of a value is blank. -/
structure Style.IsBlank (style : Style) : Prop where
  itemGap : Json.IsBlank style.itemGap
  fieldGap : Json.IsBlank style.fieldGap

theorem isSpace_iff : isSpace c = true ↔ c = 0x20 ∨ c = 0x09 ∨ c = 0x0A ∨ c = 0x0D := by
  unfold isSpace
  simp only [Bool.or_eq_true, beq_iff_eq, or_assoc]

theorem isBlank_nil : IsBlank [] := fun _ hc => absurd hc List.not_mem_nil

theorem isBlank_compact : compact.IsBlank := ⟨isBlank_nil, isBlank_nil⟩

theorem isBlank_spaced : spaced.IsBlank :=
  ⟨List.forall_mem_singleton.2 rfl, List.forall_mem_singleton.2 rfl⟩

theorem isBlank_indented : indented.IsBlank := ⟨isBlank_nil, List.forall_mem_singleton.2 rfl⟩

theorem IsBlank.append (ht : IsBlank t) (hgap : IsBlank gap) : IsBlank (t ++ gap) := fun c hc =>
  (List.mem_append.1 hc).elim (ht c) (hgap c)

theorem IsBlank.lt (ht : IsBlank t) (hc : c ∈ t) : c < 0x80 := by
  rcases isSpace_iff.1 (ht c hc) with rfl | rfl | rfl | rfl <;> decide

theorem isBlank_lineBreak (style : Style) (depth : Nat) : IsBlank (style.lineBreak depth) := by
  unfold Style.lineBreak
  cases style.indent with
  | none => exact nofun
  | some n =>
    refine List.forall_mem_cons.2 ⟨rfl, fun c hc => ?_⟩
    rw [List.eq_of_mem_replicate hc]
    rfl

theorem skipSpace_blank (hblank : IsBlank blank) : skipSpace (blank ++ t) = skipSpace t :=
  List.dropWhile_append_of_pos hblank

theorem skipSpace_cons (hc : isSpace c = false) : skipSpace (c :: t) = c :: t :=
  List.dropWhile_cons_of_neg (by rw [hc]; exact Bool.false_ne_true)

/-- A number does not go on with a mark. -/
theorem endsNumber_mark (hc : c ∈ [0x20, 0x09, 0x0A, 0x0D, 0x2C, 0x5D, 0x7D] := by decide) :
    EndsNumber (c :: rest) := by
  have hmarks : ∀ c ∈ ([0x20, 0x09, 0x0A, 0x0D, 0x2C, 0x5D, 0x7D] : Text),
      Text.isDigit c = false ∧ c ≠ 0x2E ∧ c ≠ 0x65 ∧ c ≠ 0x45 := by decide
  intro d hd
  cases hd
  exact hmarks c hc

theorem endsNumber_blank (hblank : IsBlank blank) (h : EndsNumber t) : EndsNumber (blank ++ t) := by
  cases blank with
  | nil => exact h
  | cons c blank =>
    have hc := hblank c List.mem_cons_self
    rcases isSpace_iff.1 hc with rfl | rfl | rfl | rfl <;> exact endsNumber_mark

/-! ## Spelled values -/

/-- The text begins with something other than a space or a closing bracket. -/
def Begins (t : Text) : Prop :=
  ∃ c rest, t = c :: rest ∧ isSpace c = false ∧ c ≠ 0x5D ∧ c ≠ 0x7D

/-- The text spells the value: whatever comes after it, the value is read. -/
structure Spells (w : Text) (v : Json) : Prop where
  begins : Begins w
  reads : ∀ {rest : Text} {fuel : Nat}, EndsNumber rest → w.length ≤ fuel →
    readValue fuel (w ++ rest) = .ok (v, rest)

theorem Begins.append (h : Begins w) : Begins (w ++ rest) := by
  obtain ⟨c, t, rfl, hc⟩ := h
  exact ⟨c, t ++ rest, rfl, hc⟩

theorem Begins.skipSpace_eq (h : Begins w) : skipSpace w = w := by
  obtain ⟨c, t, rfl, hc, -⟩ := h
  exact skipSpace_cons hc

theorem Begins.join (h : Begins w) {sep : Text} : Begins (Text.join sep (w :: ws)) := by
  unfold Text.join
  cases ws with
  | nil => rwa [List.intercalate_singleton]
  | cons w' ws =>
    rw [List.intercalate_cons_cons, List.append_assoc]
    exact h.append

theorem join_singleton {sep : Text} : Text.join sep [w] = w := List.intercalate_singleton

theorem join_cons_cons {w' : Text} : Text.join (0x2C :: gap) (w :: w' :: ws) =
    w ++ 0x2C :: (gap ++ Text.join (0x2C :: gap) (w' :: ws)) := by
  unfold Text.join
  rw [List.intercalate_cons_cons, List.append_assoc, List.cons_append]

/-! ## Parts between brackets -/

/-- How a list of parts is read: each part is read whatever comes after it, a closing bracket ends
the list, and after a comma reading goes on with the next part. -/
structure ReadsParts {α : Type} (read : Nat → Text → Except Stop (List α × Text))
    (closing : CodePoint) (w : Text) (a : α) : Prop where
  begins : Begins w
  last : ∀ {blank rest : Text} {fuel : Nat}, IsBlank blank → w.length ≤ fuel →
    read (fuel + 1) (w ++ (blank ++ closing :: rest)) = .ok ([a], rest)
  more : ∀ {rest : Text} {fuel : Nat}, w.length ≤ fuel →
    read (fuel + 1) (w ++ 0x2C :: rest) =
      (read fuel (skipSpace rest)).map fun found => (a :: found.1, found.2)

/-- Parts with commas and blanks between them are read up to the closing bracket. -/
theorem read_join {α : Type} {read : Nat → Text → Except Stop (List α × Text)}
    {closing : CodePoint} {as : List α} (h : List.Forall₂ (ReadsParts read closing) ws as)
    (hne : ws ≠ []) (hgap : IsBlank gap) (hblank : IsBlank blank)
    (hfuel : (Text.join (0x2C :: gap) ws).length < fuel) :
    read fuel (Text.join (0x2C :: gap) ws ++ (blank ++ closing :: rest)) = .ok (as, rest) := by
  induction h generalizing fuel with
  | nil => exact absurd rfl hne
  | @cons w a ws as hw hws ih =>
    obtain ⟨fuel, rfl⟩ := Nat.exists_eq_succ_of_ne_zero (Nat.ne_zero_of_lt hfuel)
    cases hws with
    | nil =>
      rw [join_singleton] at hfuel ⊢
      exact hw.last hblank (Nat.le_of_lt_succ hfuel)
    | @cons w' a' ws as hw' hws =>
      have hbegins : Begins (Text.join (0x2C :: gap) (w' :: ws) ++ (blank ++ closing :: rest)) :=
        hw'.begins.join.append
      rw [join_cons_cons, List.length_append, List.length_cons, List.length_append] at hfuel
      have hrest : read fuel (Text.join (0x2C :: gap) (w' :: ws) ++ (blank ++ closing :: rest)) =
          .ok (a' :: as, rest) := ih (List.cons_ne_nil _ _) (by omega)
      rw [join_cons_cons, List.append_assoc, List.cons_append, List.append_assoc,
        hw.more (by omega), skipSpace_blank hgap, hbegins.skipSpace_eq, hrest]
      rfl

/-! ## Items -/

/-- The first item is read, and what comes after it decides how reading goes on. -/
theorem readItems_spelled (h : Spells w v) (hrest : EndsNumber rest) (hfuel : w.length ≤ fuel) :
    readItems (fuel + 1) (w ++ rest) = (match skipSpace rest with
      | 0x5D :: rest => .ok ([v], rest)
      | t => do
        let rest ← expect 0x2C .comma t
        let (vs, rest) ← readItems fuel (skipSpace rest)
        return (v :: vs, rest)) := by
  rw [readItems, h.reads hrest hfuel]
  rfl

theorem Spells.readsParts (h : Spells w v) : ReadsParts readItems 0x5D w v where
  begins := h.begins
  last hblank hfuel := by
    rw [readItems_spelled h (endsNumber_blank hblank endsNumber_mark) hfuel,
      skipSpace_blank hblank, skipSpace_cons rfl]
    rfl
  more hfuel := by
    rw [readItems_spelled h endsNumber_mark hfuel, skipSpace_cons rfl]
    rfl

/-! ## Fields -/

/-- The text spells a field: its key as a string, a colon, and its value after blanks. -/
def SpellsField (w : Text) (p : Text × Json) : Prop :=
  ∃ key gap value, w = writeText key ++ 0x3A :: (gap ++ value) ∧ IsBlank gap ∧
    rejoined key = p.1 ∧ Spells value p.2

theorem SpellsField.begins (h : SpellsField w p) : Begins w := by
  obtain ⟨key, gap, value, rfl, -⟩ := h
  exact ⟨0x22, _, rfl, rfl, by decide, by decide⟩

/-- The first field is read, and what comes after it decides how reading goes on. -/
theorem readFields_spelled (h : SpellsField w p) (hrest : EndsNumber rest)
    (hfuel : w.length ≤ fuel) : readFields (fuel + 1) (w ++ rest) = (match skipSpace rest with
      | 0x7D :: rest => .ok ([p], rest)
      | t => do
        let rest ← expect 0x2C .comma t
        let (ps, rest) ← readFields fuel (skipSpace rest)
        return (p :: ps, rest)) := by
  obtain ⟨key, gap, value, rfl, hgap, hkey, hvalue⟩ := h
  obtain ⟨k, v⟩ := p
  obtain rfl : rejoined key = k := hkey
  have hquote : writeText key ++ 0x3A :: (gap ++ value) ++ rest =
      0x22 :: (key.flatMap escapeChar ++ 0x22 :: 0x3A :: (gap ++ (value ++ rest))) := by
    simp [writeText]
  have hlength : (writeText key).length = (key.flatMap escapeChar).length + 2 := by
    simp [writeText]
  rw [List.length_append, List.length_cons, List.length_append] at hfuel
  have hread : readValue fuel (value ++ rest) = .ok (v, rest) := hvalue.reads hrest (by omega)
  have hbegins : Begins (value ++ rest) := hvalue.begins.append
  have hcolon : ∀ t, skipSpace (0x3A :: t) = 0x3A :: t := fun t => skipSpace_cons rfl
  have hchars := fun start => readChars_escaped key start (0x3A :: (gap ++ (value ++ rest)))
    (show (key.flatMap escapeChar).length < fuel by omega)
  rw [hquote, readFields]
  simp only [expect, if_true, bind, Except.bind, hchars, hcolon, skipSpace_blank hgap,
    hbegins.skipSpace_eq, hread]
  rfl

theorem SpellsField.readsParts (h : SpellsField w p) : ReadsParts readFields 0x7D w p where
  begins := h.begins
  last hblank hfuel := by
    rw [readFields_spelled h (endsNumber_blank hblank endsNumber_mark) hfuel,
      skipSpace_blank hblank, skipSpace_cons rfl]
    rfl
  more hfuel := by
    rw [readFields_spelled h endsNumber_mark hfuel, skipSpace_cons rfl]
    rfl

/-! ## Brackets -/

variable {style : Style} {depth : Nat}

theorem readValue_array (h : readItems fuel t = .ok (vs, rest)) (ht : Begins t)
    (hblank : IsBlank blank) :
    readValue (fuel + 1) (0x5B :: (blank ++ t)) = .ok (.array vs, rest) := by
  have hskip := (skipSpace_blank hblank).trans ht.skipSpace_eq
  obtain ⟨c, t, rfl, -, hclosing, -⟩ := ht
  rw [readValue, if_neg (by decide), if_neg (by decide), if_pos rfl, hskip]
  split
  · next heq => exact absurd (List.cons.inj heq).1 hclosing
  · rw [h]
    rfl

theorem readValue_object (h : readFields fuel t = .ok (ps, rest)) (ht : Begins t)
    (hblank : IsBlank blank) :
    readValue (fuel + 1) (0x7B :: (blank ++ t)) = .ok (.object (fieldsOf ps), rest) := by
  have hskip := (skipSpace_blank hblank).trans ht.skipSpace_eq
  obtain ⟨c, t, rfl, -, -, hclosing⟩ := ht
  rw [readValue, if_neg (by decide), if_pos rfl, hskip]
  split
  · next heq => exact absurd (List.cons.inj heq).1 hclosing
  · rw [h]
    rfl

/-- The gap between two parts that each have a line of their own. -/
def Style.partGap (style : Style) (depth : Nat) : Text :=
  style.itemGap ++ style.lineBreak (depth + 1)

theorem enclose_eq {opening closing : CodePoint} (hne : ws ≠ []) :
    style.enclose depth opening closing ws = opening :: (style.lineBreak (depth + 1) ++
      (Text.join (0x2C :: style.partGap depth) ws ++ (style.lineBreak depth ++ [closing]))) := by
  have hempty : ws.isEmpty = false := List.isEmpty_eq_false_iff.2 hne
  have hcomma : Text.concat [",", style.itemGap, style.lineBreak (depth + 1)] =
      0x2C :: style.partGap depth := by
    unfold Style.partGap
    simp [Text.concat, Text.ofString]
  unfold Style.enclose
  rw [hempty, hcomma]
  simp [Text.concat]

/-- Parts between brackets spell a value if what reads the parts reads the value. -/
theorem spells_enclose {α : Type} {read : Nat → Text → Except Stop (List α × Text)}
    {opening closing : CodePoint} {as : List α} (hstyle : style.IsBlank)
    (hopening : isSpace opening = false ∧ opening ≠ 0x5D ∧ opening ≠ 0x7D)
    (hempty : as = [] → ∀ fuel rest,
      readValue (fuel + 1) (opening :: closing :: rest) = .ok (v, rest))
    (hread : ∀ {fuel t blank rest}, read fuel t = .ok (as, rest) → Begins t → IsBlank blank →
      readValue (fuel + 1) (opening :: (blank ++ t)) = .ok (v, rest))
    (h : List.Forall₂ (ReadsParts read closing) ws as) :
    Spells (style.enclose depth opening closing ws) v := by
  obtain ⟨hspace, hne⟩ := hopening
  by_cases hws : ws = []
  · subst hws
    cases h
    refine ⟨⟨opening, [closing], rfl, hspace, hne⟩, fun _ hfuel => ?_⟩
    obtain ⟨fuel, rfl⟩ := Nat.exists_eq_succ_of_ne_zero (Nat.ne_zero_of_lt hfuel)
    exact hempty rfl fuel _
  · have hgap : IsBlank (style.partGap depth) := hstyle.itemGap.append (isBlank_lineBreak _ _)
    rw [enclose_eq hws]
    refine ⟨⟨opening, _, rfl, hspace, hne⟩, fun _ hfuel => ?_⟩
    obtain ⟨fuel, rfl⟩ := Nat.exists_eq_succ_of_ne_zero (Nat.ne_zero_of_lt hfuel)
    simp only [List.length_cons, List.length_append, List.length_nil] at hfuel
    rw [List.cons_append, List.append_assoc, List.append_assoc, List.append_assoc]
    refine hread (read_join h hws hgap (isBlank_lineBreak _ _) (by omega)) ?_
      (isBlank_lineBreak _ _)
    cases h with
    | nil => exact absurd rfl hws
    | cons hw _ => exact hw.begins.join.append

theorem spells_array (hstyle : style.IsBlank) (h : List.Forall₂ Spells ws vs) :
    Spells (style.enclose depth 0x5B 0x5D ws) (.array vs) := by
  refine spells_enclose hstyle ⟨rfl, by decide⟩ ?_ readValue_array
    (h.imp fun _ _ hw => hw.readsParts)
  rintro rfl fuel rest
  rfl

theorem spells_object (hstyle : style.IsBlank) (h : List.Forall₂ SpellsField ws ps) :
    Spells (style.enclose depth 0x7B 0x7D ws) (.object (fieldsOf ps)) := by
  refine spells_enclose hstyle ⟨rfl, by decide⟩ ?_ readValue_object
    (h.imp fun _ _ hw => hw.readsParts)
  rintro rfl fuel rest
  rfl

/-! ## Values without parts -/

/-- A text without parts spells what is read from it in one step. -/
theorem spells_of_step (hbegins : Begins w)
    (hread : ∀ fuel rest, EndsNumber rest → readValue (fuel + 1) (w ++ rest) = .ok (v, rest)) :
    Spells w v := by
  refine ⟨hbegins, fun {rest fuel} hrest hfuel => ?_⟩
  obtain ⟨c, t, rfl, -⟩ := hbegins
  obtain ⟨fuel, rfl⟩ := Nat.exists_eq_succ_of_ne_zero (Nat.ne_zero_of_lt hfuel)
  exact hread fuel rest hrest

theorem spells_null : Spells "null" .null :=
  spells_of_step ⟨0x6E, _, rfl, by decide⟩ fun _ _ _ => rfl

theorem spells_bool (b : Bool) : Spells (if b then "true" else "false" : Text) (.bool b) := by
  cases b with
  | true => exact spells_of_step ⟨0x74, _, rfl, by decide⟩ fun _ _ _ => rfl
  | false => exact spells_of_step ⟨0x66, _, rfl, by decide⟩ fun _ _ _ => rfl

theorem begins_ofInt (i : Int) : Begins (Text.ofInt i) := by
  cases i with
  | ofNat n =>
    obtain ⟨c, ds, hd, hc⟩ := Text.exists_ofNat_eq_cons n
    refine ⟨c, ds, hd, ?_, Text.ne_of_isDigit hc (by decide), Text.ne_of_isDigit hc (by decide)⟩
    rw [← Bool.not_eq_true, isSpace_iff]
    rintro (rfl | rfl | rfl | rfl) <;> cases hc
  | negSucc n => exact ⟨0x2D, _, rfl, by decide⟩

theorem spells_int (i : Int) : Spells (Text.ofInt i) (.int i) :=
  spells_of_step (begins_ofInt i) fun fuel _ hrest => readValue_ofInt hrest i fuel

theorem spells_text (t : Text) : Spells (writeText t) (.text (rejoined t)) := by
  refine ⟨⟨0x22, _, rfl, rfl, by decide⟩, fun {rest fuel} _ hfuel => ?_⟩
  obtain ⟨fuel, rfl⟩ := Nat.exists_eq_succ_of_ne_zero (Nat.ne_zero_of_lt hfuel)
  have hlength : (writeText t).length = (t.flatMap escapeChar).length + 2 := by simp [writeText]
  have hchars := fun start => readChars_escaped t start rest
    (show (t.flatMap escapeChar).length < fuel by omega)
  have hquote : writeText t ++ rest = 0x22 :: (t.flatMap escapeChar ++ 0x22 :: rest) := by
    simp [writeText]
  rw [hquote, readValue, if_pos rfl, hchars]
  rfl

/-! ## Written values -/

mutual

/-- The value that is read where a value was written. -/
def reread : Json → Json
  | .text t => .text (rejoined t)
  | .array items => .array (rereadItems items)
  | .object fields => .object (rereadFields fields)
  | v => v

/-- The items that are read where items were written. -/
def rereadItems : List Json → List Json
  | [] => []
  | v :: rest => reread v :: rereadItems rest

/-- The fields that are read where fields were written. -/
def rereadFields : List (Text × Json) → List (Text × Json)
  | [] => []
  | (k, v) :: rest => (rejoined k, reread v) :: rereadFields rest

end

/-- All numbers of the value are integers, and the keys of an object are distinct texts of scalar
values. -/
inductive Writable : Json → Prop
  | null : Writable .null
  | bool (b : Bool) : Writable (.bool b)
  | int (i : Int) : Writable (.int i)
  | text (t : Text) : Writable (.text t)
  | array {items : List Json} : (∀ v ∈ items, Writable v) → Writable (.array items)
  | object {fields : List (Text × Json)} : (fields.map Prod.fst).Nodup →
    (∀ p ∈ fields, ∀ c ∈ p.1, Text.IsScalar c) → (∀ p ∈ fields, Writable p.2) →
    Writable (.object fields)

variable {items : List Json} {fields : List (Text × Json)}

/-- An object whose keys are among distinct texts of scalar values, in their order. -/
theorem Writable.object_of_sublist {keys : List Text} (h : (fields.map Prod.fst).Sublist keys)
    (hdistinct : keys.Nodup) (hscalar : ∀ k ∈ keys, ∀ c ∈ k, Text.IsScalar c)
    (hvalues : ∀ p ∈ fields, Writable p.2) : Writable (.object fields) :=
  .object (hdistinct.sublist h) (fun _ hp => hscalar _ (h.subset (List.mem_map_of_mem hp))) hvalues

theorem Writable.object_singleton (hscalar : ∀ c ∈ key, Text.IsScalar c) (hv : Writable v) :
    Writable (.object [(key, v)]) :=
  .object (List.nodup_singleton _) (List.forall_mem_singleton.2 hscalar)
    (List.forall_mem_singleton.2 hv)

theorem rereadItems_eq (items : List Json) : rereadItems items = items.map reread := by
  induction items with
  | nil => rfl
  | cons v rest ih => rw [rereadItems, ih, List.map_cons]

theorem rereadFields_eq (fields : List (Text × Json)) :
    rereadFields fields = fields.map fun p => (rejoined p.1, reread p.2) := by
  induction fields with
  | nil => rfl
  | cons p rest ih => rw [rereadFields, ih, List.map_cons]

theorem writeItems_eq (items : List Json) :
    writeItems style depth items = items.map (writeAt style depth) := by
  induction items with
  | nil => rfl
  | cons v rest ih => rw [writeItems, ih, List.map_cons]

theorem writeFields_eq (fields : List (Text × Json)) :
    writeFields style depth fields = fields.map fun p =>
      writeText p.1 ++ 0x3A :: (style.fieldGap ++ writeAt style depth p.2) := by
  induction fields with
  | nil => rfl
  | cons p rest ih =>
    have hfield : Text.concat [writeText p.1, ":", style.fieldGap, writeAt style depth p.2] =
        writeText p.1 ++ 0x3A :: (style.fieldGap ++ writeAt style depth p.2) := by
      simp [Text.concat, Text.ofString]
    rw [writeFields, ih, List.map_cons, hfield]

theorem insert_of_notMem (h : key ∉ fields.map Prod.fst) :
    insert key v fields = fields ++ [(key, v)] := by
  induction fields with
  | nil => rfl
  | cons p rest ih =>
    rw [List.map_cons, List.mem_cons, not_or] at h
    rw [insert, if_neg (Ne.symm h.1), ih h.2, List.cons_append]

/-- Fields with distinct keys stay as they are. -/
theorem fieldsOf_of_nodup (h : (ps.map Prod.fst).Nodup) : fieldsOf ps = ps := by
  have hfold : ∀ fields : List (Text × Json), ((fields ++ ps).map Prod.fst).Nodup →
      ps.foldl (fun fields p => insert p.1 p.2 fields) fields = fields ++ ps := by
    clear h
    induction ps with
    | nil => exact fun fields _ => (List.append_nil _).symm
    | cons p rest ih =>
      intro fields hkeys
      have hp : p.1 ∉ fields.map Prod.fst := by
        rw [List.map_append, List.nodup_append] at hkeys
        exact fun hm => hkeys.2.2 _ hm _ List.mem_cons_self rfl
      have hassoc : fields ++ p :: rest = (fields ++ [p]) ++ rest := by simp
      rw [List.foldl_cons, insert_of_notMem hp, hassoc]
      rw [hassoc] at hkeys
      exact ih _ hkeys
  exact hfold [] h

theorem rereadFields_of_scalar (h : ∀ p ∈ fields, ∀ c ∈ p.1, Text.IsScalar c) :
    rereadFields fields = fields.map fun p => (p.1, reread p.2) := by
  rw [rereadFields_eq]
  exact List.map_congr_left fun p hp => by rw [rejoined_of_scalar (h p hp)]

/-! ## Written code points -/

/-- All code points that a style puts between the parts of a value are such. -/
structure Style.Keeps (style : Style) (P : CodePoint → Prop) : Prop where
  itemGap : ∀ c ∈ style.itemGap, P c
  fieldGap : ∀ c ∈ style.fieldGap, P c
  lineBreak : ∀ depth, ∀ c ∈ style.lineBreak depth, P c

section

variable {P : CodePoint → Prop}

theorem forall_mem_join (hsep : ∀ c ∈ gap, P c) (hws : ∀ w ∈ ws, ∀ c ∈ w, P c) :
    ∀ c ∈ Text.join gap ws, P c := by
  unfold Text.join
  induction ws with
  | nil => simp
  | cons w rest ih =>
    obtain ⟨hw, hrest⟩ := List.forall_mem_cons.1 hws
    cases rest with
    | nil => simpa using hw
    | cons w' rest =>
      rw [List.intercalate_cons_cons, List.forall_mem_append, List.forall_mem_append]
      exact ⟨⟨hw, hsep⟩, ih hrest⟩

theorem forall_mem_enclose (hplain : ∀ c, Text.IsPlain c → P c) (hstyle : style.Keeps P)
    {opening closing : CodePoint} (hopening : Text.IsPlain opening)
    (hclosing : Text.IsPlain closing) (hws : ∀ w ∈ ws, ∀ c ∈ w, P c) :
    ∀ c ∈ style.enclose depth opening closing ws, P c := by
  by_cases hempty : ws = []
  · subst hempty
    exact List.forall_mem_cons.2 ⟨hplain _ hopening, List.forall_mem_singleton.2 (hplain _ hclosing)⟩
  · have hgap : ∀ c ∈ 0x2C :: style.partGap depth, P c := by
      rw [List.forall_mem_cons, Style.partGap, List.forall_mem_append]
      exact ⟨hplain _ (by decide), hstyle.itemGap, hstyle.lineBreak _⟩
    rw [enclose_eq hempty, List.forall_mem_cons, List.forall_mem_append, List.forall_mem_append,
      List.forall_mem_append, List.forall_mem_singleton]
    exact ⟨hplain _ hopening, hstyle.lineBreak _, forall_mem_join hgap hws, hstyle.lineBreak _,
      hplain _ hclosing⟩

theorem isPlain_writeText (t : Text) : ∀ c ∈ writeText t, Text.IsPlain c := by
  unfold writeText
  rw [List.cons_append, List.forall_mem_cons, List.forall_mem_append, List.forall_mem_singleton]
  refine ⟨by decide, fun c hc => ?_, by decide⟩
  obtain ⟨d, -, hd⟩ := List.mem_flatMap.1 hc
  exact isPlain_of_mem_escapeChar hd

theorem isPlain_writeNumber (n : Number) : ∀ c ∈ writeNumber n, Text.IsPlain c := by
  unfold writeNumber
  split
  · decide
  · split <;> decide
  · exact fun _ => Number.isPlain_of_mem_text

mutual

/-- A value is written in plain code points and those that the style puts between its parts. -/
theorem forall_mem_writeAt (hplain : ∀ c, Text.IsPlain c → P c) (hstyle : style.Keeps P) :
    ∀ (depth : Nat) (v : Json), ∀ c ∈ writeAt style depth v, P c
  | _, .null => fun c hc => hplain c ((by decide : ∀ c ∈ Text.ofString "null", Text.IsPlain c) c hc)
  | _, .bool b => fun c hc => by
    have hwords : ∀ b : Bool, ∀ c ∈ (if b then "true" else "false" : Text), Text.IsPlain c := by
      decide
    exact hplain c (hwords b c hc)
  | _, .number n => fun c hc => hplain c (isPlain_writeNumber n c hc)
  | _, .text t => fun c hc => hplain c (isPlain_writeText t c hc)
  | depth, .array items => by
    rw [writeAt]
    exact forall_mem_enclose hplain hstyle (by decide) (by decide)
      (forall_mem_writeItems hplain hstyle (depth + 1) items)
  | depth, .object fields => by
    rw [writeAt]
    exact forall_mem_enclose hplain hstyle (by decide) (by decide)
      (forall_mem_writeFields hplain hstyle (depth + 1) fields)

theorem forall_mem_writeItems (hplain : ∀ c, Text.IsPlain c → P c) (hstyle : style.Keeps P) :
    ∀ (depth : Nat) (items : List Json), ∀ w ∈ writeItems style depth items, ∀ c ∈ w, P c
  | _, [] => nofun
  | depth, v :: items => List.forall_mem_cons.2 ⟨forall_mem_writeAt hplain hstyle depth v,
      forall_mem_writeItems hplain hstyle depth items⟩

theorem forall_mem_writeFields (hplain : ∀ c, Text.IsPlain c → P c) (hstyle : style.Keeps P) :
    ∀ (depth : Nat) (fields : List (Text × Json)), ∀ w ∈ writeFields style depth fields,
      ∀ c ∈ w, P c
  | _, [] => nofun
  | depth, (key, v) :: fields => by
    rw [writeFields_eq, List.map_cons, List.forall_mem_cons, ← writeFields_eq,
      List.forall_mem_append, List.forall_mem_cons, List.forall_mem_append]
    exact ⟨⟨fun c hc => hplain c (isPlain_writeText key c hc), hplain _ (by decide),
      hstyle.fieldGap, forall_mem_writeAt hplain hstyle depth v⟩,
      forall_mem_writeFields hplain hstyle depth fields⟩

end

end

theorem Style.IsBlank.keeps (h : style.IsBlank) : style.Keeps (· < 0x80) where
  itemGap _ hc := h.itemGap.lt hc
  fieldGap _ hc := h.fieldGap.lt hc
  lineBreak depth _ hc := (isBlank_lineBreak style depth).lt hc

/-- What is written is ASCII. -/
theorem ascii_writeAt (hstyle : style.IsBlank) (depth : Nat) (v : Json) :
    ∀ c ∈ writeAt style depth v, c < 0x80 :=
  forall_mem_writeAt (fun _ hc => hc.lt) hstyle.keeps depth v

/-! ## Reading back -/

/-- A value is spelled by what it is written as. -/
theorem spells_writeAt (hstyle : style.IsBlank) (h : Writable v) (depth : Nat) :
    Spells (writeAt style depth v) v.reread := by
  induction h generalizing depth with
  | null => exact spells_null
  | bool b => exact spells_bool b
  | int i => exact spells_int i
  | text t => exact spells_text t
  | @array items hitems ih =>
    show Spells (style.enclose depth 0x5B 0x5D (writeItems style (depth + 1) items))
      (.array (rereadItems items))
    rw [writeItems_eq, rereadItems_eq]
    refine spells_array hstyle ?_
    rw [List.forall₂_map_left_iff, List.forall₂_map_right_iff, List.forall₂_same]
    exact fun v hv => ih v hv (depth + 1)
  | @object fields hkeys hscalar hfields ih =>
    show Spells (style.enclose depth 0x7B 0x7D (writeFields style (depth + 1) fields))
      (.object (rereadFields fields))
    have hdistinct : ((rereadFields fields).map Prod.fst).Nodup := by
      rw [rereadFields_of_scalar hscalar, List.map_map]
      exact hkeys
    rw [← fieldsOf_of_nodup hdistinct]
    refine spells_object hstyle ?_
    rw [writeFields_eq, rereadFields_eq, List.forall₂_map_left_iff, List.forall₂_map_right_iff,
      List.forall₂_same]
    exact fun p hp => ⟨p.1, style.fieldGap, _, rfl, hstyle.fieldGap, rfl, ih p hp (depth + 1)⟩

/-- A written value is read back, whatever blanks come after it. -/
theorem read_write (hstyle : style.IsBlank) (h : Writable v) (hblank : IsBlank blank) :
    read (write style v ++ blank) = .ok v.reread := by
  obtain ⟨hbegins, hreads⟩ := spells_writeAt hstyle h 0
  have hnumber : EndsNumber blank := by
    rw [← List.append_nil blank]
    exact endsNumber_blank hblank nofun
  have hskip : skipSpace blank = [] := by
    rw [← List.append_nil blank]
    exact skipSpace_blank hblank
  have hmark : (write style v ++ blank).head? ≠ some 0xFEFF := by
    obtain ⟨c, t, hw, -⟩ := hbegins
    have hlt : c < 0x80 := ascii_writeAt hstyle 0 v c (by rw [hw]; exact List.mem_cons_self)
    unfold write
    rw [hw]
    rintro ⟨⟩
    exact absurd hlt (by decide)
  refine read_of_readValue hmark ?_ hskip
  have hfirst : skipSpace (write style v ++ blank) = write style v ++ blank :=
    hbegins.append.skipSpace_eq
  rw [hfirst]
  refine hreads hnumber ?_
  rw [List.length_append]
  unfold write
  omega

/-! ## Values that come back -/

/-- The value can be written and is read back as it was. -/
structure Faithful (v : Json) : Prop where
  writable : Writable v
  reread_eq : v.reread = v

theorem faithful_bool (b : Bool) : Faithful (.bool b) := ⟨.bool b, rfl⟩

theorem faithful_int (i : Int) : Faithful (.int i) := ⟨.int i, rfl⟩

theorem faithful_text (h : ∀ c ∈ t, Text.IsScalar c) : Faithful (.text t) :=
  ⟨.text t, congrArg Json.text (rejoined_of_scalar h)⟩

theorem faithful_array (h : ∀ v ∈ items, Faithful v) : Faithful (.array items) := by
  refine ⟨.array fun v hv => (h v hv).writable, ?_⟩
  have hitems : items.map reread = items.map id :=
    List.map_congr_left fun v hv => (h v hv).reread_eq
  rw [reread, rereadItems_eq, hitems, List.map_id]

theorem faithful_object (keys : List Text) (hkeys : fields.map Prod.fst = keys)
    (hdistinct : keys.Nodup) (hscalar : ∀ k ∈ keys, ∀ c ∈ k, Text.IsScalar c)
    (h : ∀ p ∈ fields, Faithful p.2) : Faithful (.object fields) := by
  subst hkeys
  have hkey : ∀ p ∈ fields, ∀ c ∈ p.1, Text.IsScalar c := List.forall_mem_map.1 hscalar
  refine ⟨.object hdistinct hkey fun p hp => (h p hp).writable, ?_⟩
  have hfields : fields.map (fun p => (p.1, reread p.2)) = fields.map id :=
    List.map_congr_left fun p hp => by rw [(h p hp).reread_eq]; rfl
  rw [reread, rereadFields_of_scalar hkey, hfields, List.map_id]

/-- A value that comes back is read from what it is written as, whatever blanks come after it. -/
theorem Faithful.read_write (h : Faithful v) (hstyle : style.IsBlank) (hblank : IsBlank blank) :
    read (write style v ++ blank) = .ok v := by
  rw [Json.read_write hstyle h.writable hblank, h.reread_eq]

end XofConformance.Json
