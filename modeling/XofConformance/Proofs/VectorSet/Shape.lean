import XofConformance.VectorSet.Reader

/-!
# Values of a shape

What it is for a value to have a shape, said without listing violations: it is of the kind, no
number lies outside its bounds, the required fields are there, and the fields that are there have
the shapes of their own. A value is checked without a violation if and only if it has the shape.

    shape.check v = [] ↔ shape.Fits v                                    (check_eq_nil_iff)
-/

namespace XofConformance.Shape

/-! ## Fitting -/

/-- A number of the value is neither below the one bound nor above the other. -/
def InBounds (least greatest : Option Nat) (v : Json) : Prop :=
  ∀ n, v = .number n → (∀ k ∈ least, n.lt (.int (k : Nat)) = false) ∧
    ∀ k ∈ greatest, Number.lt (.int (k : Nat)) n = false

mutual

/-- The value has the shape. -/
def Fits : Shape → Json → Prop
  | .value kind least greatest, v => kind.accepts v = true ∧ InBounds least greatest v
  | .list item, v => ∃ items, v = .array items ∧ ∀ i ∈ items, Fits item i
  | .record required fields, v =>
    ∃ present, v = .object present ∧
      (∀ key ∈ required, (Json.lookup key present).isSome = true) ∧ FitsFields fields present

/-- The fields that are there have their shapes. -/
def FitsFields : List (Text × Shape) → List (Text × Json) → Prop
  | [], _ => True
  | (key, shape) :: rest, present =>
    (∀ v, Json.lookup key present = some v → Fits shape v) ∧ FitsFields rest present

end

/-! ## Checking -/

variable {path : List Text} {v : Json}

theorem kindViolation_eq_nil_iff {kind : Kind} :
    kindViolation kind path v = [] ↔ kind.accepts v = true := by
  unfold kindViolation
  cases kind.accepts v <;> simp

theorem boundViolations_eq_nil_iff {least greatest : Option Nat} :
    boundViolations least greatest path v = [] ↔ InBounds least greatest v := by
  cases v with
  | number n => simp [boundViolations, InBounds]
  | _ => exact iff_of_true rfl nofun

mutual

theorem violations_eq_nil_iff : ∀ (shape : Shape) (path : List Text) (v : Json),
    shape.violations path v = [] ↔ shape.Fits v
  | .value kind least greatest, path, v => by
    rw [violations, Fits, List.append_eq_nil_iff, kindViolation_eq_nil_iff,
      boundViolations_eq_nil_iff]
  | .list item, path, v => by
    cases v with
    | array items =>
      rw [violations, Fits, List.flatMap_eq_nil_iff]
      constructor
      · intro h
        refine ⟨items, rfl, fun i hi => ?_⟩
        obtain ⟨n, hn⟩ := List.mem_iff_getElem?.1 hi
        have hp : (i, n) ∈ items.zipIdx := List.mk_mem_zipIdx_iff_getElem?.2 hn
        exact (violations_eq_nil_iff item _ i).1 (h _ hp)
      · rintro ⟨_, ⟨⟩, h⟩ p hp
        exact (violations_eq_nil_iff item _ p.1).2 (h _ (List.fst_mem_of_mem_zipIdx hp))
    | _ => simp [violations, Fits, kindViolation, Kind.accepts]
  | .record required fields, path, v => by
    cases v with
    | object present =>
      rw [violations, Fits, List.append_eq_nil_iff, fieldViolations_eq_nil_iff fields path present]
      have hmissing : (required.filter fun key => (Json.lookup key present).isNone).map
          (fun key => ({ path, defect := .missing key } : Violation)) = [] ↔
            ∀ key ∈ required, (Json.lookup key present).isSome = true := by
        simp [Option.isSome_iff_ne_none]
      rw [hmissing]
      exact ⟨fun h => ⟨present, rfl, h⟩, fun ⟨_, he, h⟩ => by cases he; exact h⟩
    | _ => simp [violations, Fits, kindViolation, Kind.accepts]

theorem fieldViolations_eq_nil_iff :
    ∀ (fields : List (Text × Shape)) (path : List Text) (present : List (Text × Json)),
      fieldViolations fields path present = [] ↔ FitsFields fields present
  | [], _, _ => iff_of_true rfl trivial
  | (key, shape) :: rest, path, present => by
    rw [fieldViolations, FitsFields, List.append_eq_nil_iff,
      fieldViolations_eq_nil_iff rest path present]
    cases Json.lookup key present with
    | none => simp
    | some w => simp [violations_eq_nil_iff shape (path ++ [key]) w]

end

/-- A value is checked without a violation if and only if it has the shape. -/
theorem check_eq_nil_iff {shape : Shape} : shape.check v = [] ↔ shape.Fits v := by
  unfold check
  rw [← violations_eq_nil_iff shape [] v]
  constructor
  · intro h
    have hperm := List.mergeSort_perm (shape.violations [] v)
      fun a b => !List.lex b.path a.path Text.precedes
    rw [h] at hperm
    exact hperm.nil_eq.symm
  · intro h
    rw [h, List.mergeSort_nil]

/-! ## Fields of a record -/

section

variable {key : Text} {shape : Shape} {required : List Text} {fields : List (Text × Shape)}

theorem FitsFields.lookup {present : List (Text × Json)} (h : FitsFields fields present)
    (hkey : (key, shape) ∈ fields) (hv : Json.lookup key present = some v) : shape.Fits v := by
  induction fields with
  | nil => cases hkey
  | cons field rest ih =>
    rw [FitsFields] at h
    rcases List.mem_cons.1 hkey with rfl | hkey
    · exact h.1 v hv
    · exact ih h.2 hkey

/-- A field of a value that has the shape of a record has the shape of the field. -/
theorem Fits.field? (h : (record required fields).Fits v) (hkey : (key, shape) ∈ fields)
    {w : Json} (hw : v.field? key = some w) : shape.Fits w := by
  rw [Fits] at h
  obtain ⟨present, rfl, -, hfields⟩ := h
  exact hfields.lookup hkey hw

theorem Fits.itemsField {item : Shape} (h : (record required fields).Fits v)
    (hkey : (key, .list item) ∈ fields) {i : Json} (hi : i ∈ v.itemsField key) : item.Fits i := by
  unfold Json.itemsField at hi
  cases hw : v.field? key with
  | none =>
    rw [hw] at hi
    cases hi
  | some w =>
    have hlist := h.field? hkey hw
    rw [Fits] at hlist
    obtain ⟨items, rfl, hitems⟩ := hlist
    rw [hw] at hi
    exact hitems i hi

end

end XofConformance.Shape
