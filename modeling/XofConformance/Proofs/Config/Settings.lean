import XofConformance.Config
import XofConformance.Proofs.Lists
import XofConformance.Proofs.Number.Positive

/-!
# What settings say

The values that a setting may have, and the layer that a mapping says: a field that is not there
says nothing, and the value of one that is there has to be fit for it. A mapping is taken exactly if
all that it says is fit.

    c.override entries = .ok c' ↔ ∃ l, l.SaidBy entries ∧ c' = c.under l       (override_eq_ok_iff)
    l.SaidBy (entriesOf a b n x) ↔ the values that are there are those of l   (saidBy_entriesOf_iff)
-/

namespace XofConformance

/-! ## Keys -/

namespace Yaml.Value

variable {k key : Scalar} {t : Text} {v : Value} {xs ys : List (Scalar × Value)}

/-- A text is the same key as itself and nothing else. -/
theorem same_text_iff : k.same (.text t) = true ↔ k = .text t := by
  cases k <;> simp [Scalar.same, Scalar.numeric?]

theorem lookup_append : lookup key (xs ++ ys) = (lookup key xs <|> lookup key ys) := by
  induction xs with
  | nil => rfl
  | cons p rest ih =>
    rw [List.cons_append, lookup, lookup, ih]
    split <;> rfl

end Yaml.Value

namespace Config

open Yaml (Value)

variable {v : Value} {entries : Entries} {c c' : Config} {l : Layer}

/-! ## Values of the fields -/

/-- The value names an actor. -/
def NamesActor (v : Value) (t : Text) : Prop := v = .scalar (.text t) ∧ t ≠ []

/-- The value gives arguments, one by one or as a command line. -/
inductive GivesArguments : Value → List Text → Prop
  | list (ts : List Text) : GivesArguments (.list (ts.map fun t => .scalar (.text t))) ts
  | line {t : Text} {ts : List Text} (h : Text.ShellWords.split? t = some ts) :
    GivesArguments (.scalar (.text t)) ts

/-- The value is a number of workers. -/
def CountsWorkers (v : Value) (n : Int) : Prop := v = .scalar (.number (.int n)) ∧ 1 ≤ n

/-- The time is more than zero, or a NaN. -/
def IsTime (x : Binary64) : Prop := x = .nan ∨ (Number.float x).IsPositive

/-- The value is a time, as a binary64 value or as an integer that has one nearest to it. -/
inductive LimitsTime : Value → Binary64 → Prop
  | float {x : Binary64} (h : IsTime x) : LimitsTime (.scalar (.number (.float x))) x
  | int {k : Int} {x : Binary64} (hk : 0 < k) (hx : Binary64.ofInt? k = some x) :
    LimitsTime (.scalar (.number (.int k))) x

/-- The value is an integer above zero that is too large for a binary64 value. -/
def TooLarge (v : Value) : Prop :=
  ∃ k : Int, v = .scalar (.number (.int k)) ∧ 0 < k ∧ Binary64.ofInt? k = none

theorem readActor_eq_ok_iff {t : Text} : readActor v = .ok t ↔ NamesActor v t := by
  unfold NamesActor
  constructor
  · intro h
    unfold readActor at h
    split at h
    · next t' =>
      by_cases ht : t'.isEmpty = true
      · rw [if_pos ht] at h
        cases h
      · rw [if_neg ht] at h
        cases h
        exact ⟨rfl, fun hnil => ht (List.isEmpty_iff.2 hnil)⟩
    · cases h
  · rintro ⟨rfl, ht⟩
    show (if t.isEmpty = true then refuse .actor else .ok t) = .ok t
    rw [if_neg fun hempty => ht (List.isEmpty_iff.1 hempty)]

theorem readTexts_eq_ok_iff {items : List Value} {ts : List Text} :
    readTexts items = .ok ts ↔ items = ts.map fun t => .scalar (.text t) := by
  induction items generalizing ts with
  | nil => cases ts <;> simp [readTexts]
  | cons item rest ih =>
    constructor
    · intro h
      unfold readTexts at h
      split at h
      · next heq => cases heq
      · next t rest' heq =>
        cases heq
        obtain ⟨ts', hts, h⟩ := exists_of_bind_eq_ok h
        cases h
        rw [ih.1 hts, List.map_cons]
      · cases h
    · intro h
      cases ts with
      | nil => cases h
      | cons t ts =>
        obtain ⟨rfl, hrest⟩ := List.cons.inj h
        rw [readTexts, ih.2 hrest]
        rfl

theorem readActorArgs_eq_ok_iff {ts : List Text} :
    readActorArgs v = .ok ts ↔ GivesArguments v ts := by
  constructor
  · intro h
    unfold readActorArgs at h
    split at h
    · next t =>
      cases hsplit : Text.ShellWords.split? t with
      | none =>
        rw [hsplit] at h
        cases h
      | some words =>
        rw [hsplit] at h
        cases h
        exact .line hsplit
    · rw [readTexts_eq_ok_iff.1 h]
      exact .list ts
    · cases h
  · intro h
    cases h with
    | list => exact readTexts_eq_ok_iff.2 rfl
    | line hsplit =>
      rw [readActorArgs, hsplit]

theorem readWorkers_eq_ok_iff {n : Int} : readWorkers v = .ok n ↔ CountsWorkers v n := by
  unfold CountsWorkers
  constructor
  · intro h
    unfold readWorkers at h
    split at h
    · next k =>
      by_cases hk : 1 ≤ k
      · rw [if_pos hk] at h
        cases h
        exact ⟨rfl, hk⟩
      · rw [if_neg hk] at h
        cases h
    · cases h
  · rintro ⟨rfl, hn⟩
    exact if_pos hn

theorem le_zero_float {x : Binary64} : (Number.float x).le (.int 0) = false ↔ IsTime x := by
  rw [Number.le_zero_eq_false_iff, Number.float.injEq]
  exact Iff.rfl

theorem le_zero_int {k : Int} : (Number.int k).le (.int 0) = false ↔ 0 < k := by
  rw [Bool.eq_false_iff, Ne, Number.le_int, Int.not_le]

theorem readTimeout_refused {n : Number} (h : n.le (.int 0) = true) :
    readTimeout (.scalar (.number n)) = refuse .timeout := by
  -- The order and the conversion are made variables, since to reduce the readers the kernel would
  -- compute with them.
  obtain ⟨le, hle⟩ : ∃ f, f = Number.le := ⟨_, rfl⟩
  unfold readTimeout
  rw [← hle] at h ⊢
  exact if_pos h

theorem readTimeout_float {x : Binary64} (h : (Number.float x).le (.int 0) = false) :
    readTimeout (.scalar (.number (.float x))) = .ok x := by
  obtain ⟨le, hle⟩ : ∃ f, f = Number.le := ⟨_, rfl⟩
  unfold readTimeout
  rw [← hle] at h ⊢
  exact if_neg (Bool.eq_false_iff.1 h)

theorem readTimeout_int {k : Int} (h : (Number.int k).le (.int 0) = false) :
    readTimeout (.scalar (.number (.int k))) =
      (Binary64.ofInt? k).elim (.error (.defect .overflow)) .ok := by
  obtain ⟨le, hle⟩ : ∃ f, f = Number.le := ⟨_, rfl⟩
  obtain ⟨convert, hconvert⟩ : ∃ f, f = Binary64.ofInt? := ⟨_, rfl⟩
  unfold readTimeout
  rw [← hle] at h ⊢
  rw [← hconvert]
  simp only [h]
  cases convert k <;> rfl

/-- What comes of the value of a time. -/
theorem readTimeout_cases (v : Value) : (∃ x, LimitsTime v x ∧ readTimeout v = .ok x) ∨
    (TooLarge v ∧ readTimeout v = .error (.defect .overflow)) ∨
      readTimeout v = refuse .timeout := by
  match v with
  | .scalar (.number n) =>
    cases hle : n.le (.int 0) with
    | true => exact .inr (.inr (readTimeout_refused hle))
    | false =>
      cases n with
      | float x => exact .inl ⟨x, .float (le_zero_float.1 hle), readTimeout_float hle⟩
      | int k =>
        rw [readTimeout_int hle]
        cases hx : Binary64.ofInt? k with
        | some x => exact .inl ⟨x, .int (le_zero_int.1 hle) hx, rfl⟩
        | none => exact .inr (.inl ⟨⟨k, rfl, le_zero_int.1 hle, hx⟩, rfl⟩)
  | .scalar .null | .scalar (.bool _) | .scalar (.text _) | .scalar (.bytes _)
  | .scalar (.timestamp _) | .list _ | .mapping _ | .set _ => exact .inr (.inr rfl)

theorem readTimeout_eq_ok_iff {x : Binary64} : readTimeout v = .ok x ↔ LimitsTime v x := by
  constructor
  · intro h
    rcases readTimeout_cases v with ⟨y, hy, hok⟩ | ⟨-, herror⟩ | herror
    · rw [hok] at h
      cases h
      exact hy
    · rw [herror] at h
      cases h
    · rw [herror] at h
      cases h
  · intro h
    cases h with
    | float hx => exact readTimeout_float (le_zero_float.2 hx)
    | int hk hx =>
      rw [readTimeout_int (le_zero_int.2 hk), hx]
      rfl

/-- The time of a setting is a time. -/
theorem LimitsTime.isTime {x : Binary64} (h : LimitsTime v x) : IsTime x := by
  cases h with
  | float hx => exact hx
  | int hk hx => exact Or.inr (Binary64.isPositive_of_ofInt? hk hx)

/-! ## Mappings -/

/-- A setting is read if it is not there, or if its value is fit. -/
theorem readSetting_eq_ok_iff {α : Type} {name : String} {read : Value → Except Fault α}
    {R : Value → α → Prop} (hread : ∀ v a, read v = .ok a ↔ R v a) {o : Option α} :
    readSetting name read entries = .ok o ↔ Option.Rel R (setting? name entries) o := by
  unfold readSetting
  cases setting? name entries with
  | none =>
    constructor
    · intro h
      cases h
      exact .none
    · intro h
      cases h
      rfl
  | some v =>
    constructor
    · intro h
      have h : some <$> read v = .ok o := h
      cases ha : read v with
      | error f =>
        rw [ha] at h
        cases h
      | ok a =>
        rw [ha] at h
        cases h
        exact .some ((hread v a).1 ha)
    · intro h
      cases h with
      | some hr =>
        show some <$> read v = _
        rw [(hread v _).2 hr]
        rfl

/-- All keys of the mapping are names of settings. -/
def Known (entries : Entries) : Prop := ∀ e ∈ entries, isField e.1 = true

theorem known_append {es fs : Entries} (he : Known es) (hf : Known fs) : Known (es ++ fs) :=
  List.forall_mem_append.2 ⟨he, hf⟩

/-- The keys of the mapping that are no names of settings. -/
def strangers (entries : Entries) : List Yaml.Scalar :=
  (entries.map (·.1)).filter fun k => !isField k

theorem strangers_eq_nil_iff : strangers entries = [] ↔ Known entries := by
  simp [strangers, List.filter_eq_nil_iff, Known]

theorem checkKeys_eq : checkKeys entries =
    if (strangers entries).isEmpty then .ok ()
    else match sortKeys (strangers entries) with
      | some keys => refuse (.unexpectedKeys (keys.map Yaml.Scalar.quoted))
      | none => .error (.defect .unordered) := rfl

theorem checkKeys_eq_ok_iff : checkKeys entries = .ok () ↔ Known entries := by
  rw [← strangers_eq_nil_iff, ← List.isEmpty_iff, checkKeys_eq]
  split
  · next h => exact iff_of_true rfl h
  · next h =>
    refine iff_of_false (fun hok => ?_) h
    split at hok <;> cases hok

/-- The mapping says what the layer says. -/
structure Layer.SaidBy (entries : Entries) (l : Layer) : Prop where
  known : Known entries
  actor : Option.Rel NamesActor (setting? "actor" entries) l.actor
  actorArgs : Option.Rel GivesArguments (setting? "actor_args" entries) l.actorArgs
  workers : Option.Rel CountsWorkers (setting? "workers" entries) l.workers
  timeoutSecs : Option.Rel LimitsTime (setting? "timeout_secs" entries) l.timeoutSecs

theorem Layer.ofEntries_eq_ok_iff : Layer.ofEntries entries = .ok l ↔ l.SaidBy entries := by
  constructor
  · intro h
    obtain ⟨_, hkeys, h⟩ := exists_of_bind_eq_ok h
    obtain ⟨a, ha, h⟩ := exists_of_bind_eq_ok h
    obtain ⟨b, hb, h⟩ := exists_of_bind_eq_ok h
    obtain ⟨n, hn, h⟩ := exists_of_bind_eq_ok h
    obtain ⟨x, hx, h⟩ := exists_of_bind_eq_ok h
    cases h
    exact {
      known := checkKeys_eq_ok_iff.1 hkeys
      actor := (readSetting_eq_ok_iff fun _ _ => readActor_eq_ok_iff).1 ha
      actorArgs := (readSetting_eq_ok_iff fun _ _ => readActorArgs_eq_ok_iff).1 hb
      workers := (readSetting_eq_ok_iff fun _ _ => readWorkers_eq_ok_iff).1 hn
      timeoutSecs := (readSetting_eq_ok_iff fun _ _ => readTimeout_eq_ok_iff).1 hx }
  · intro h
    unfold Layer.ofEntries
    rw [checkKeys_eq_ok_iff.2 h.known,
      (readSetting_eq_ok_iff fun _ _ => readActor_eq_ok_iff).2 h.actor,
      (readSetting_eq_ok_iff fun _ _ => readActorArgs_eq_ok_iff).2 h.actorArgs,
      (readSetting_eq_ok_iff fun _ _ => readWorkers_eq_ok_iff).2 h.workers,
      (readSetting_eq_ok_iff fun _ _ => readTimeout_eq_ok_iff).2 h.timeoutSecs]
    rfl

/-- **Settings under a mapping**: a mapping is taken exactly if all that it says is fit, and then
what it says lies over the settings. -/
theorem override_eq_ok_iff :
    c.override entries = .ok c' ↔ ∃ l : Layer, l.SaidBy entries ∧ c' = c.under l := by
  constructor
  · intro h
    obtain ⟨l, hl, h⟩ := exists_of_bind_eq_ok h
    cases h
    exact ⟨l, Layer.ofEntries_eq_ok_iff.1 hl, rfl⟩
  · rintro ⟨l, hl, rfl⟩
    unfold override
    rw [Layer.ofEntries_eq_ok_iff.2 hl]
    rfl

/-! ## Mappings of given values -/

/-- The entry of a setting, if it has a value. -/
def entry (name : String) (v : Option Value) : Entries := (v.map fun v => (.text name, v)).toList

@[simp] theorem setting?_entry {name : String} {o : Option Value} :
    setting? name (entry name o) = o := by
  cases o with
  | none => rfl
  | some v => exact if_pos (Value.same_text_iff.2 rfl)

theorem setting?_entry_of_ne {name other : String} {o : Option Value}
    (h : Text.ofString other ≠ Text.ofString name) : setting? name (entry other o) = none := by
  cases o with
  | none => rfl
  | some v => exact if_neg fun hsame => h (Yaml.Scalar.text.inj (Value.same_text_iff.1 hsame))

/-- The mapping of the values that are there. -/
def entriesOf (actor actorArgs workers timeoutSecs : Option Value) : Entries :=
  entry "actor" actor ++ entry "actor_args" actorArgs ++ entry "workers" workers
    ++ entry "timeout_secs" timeoutSecs

theorem setting?_append {name : String} {es fs : Entries} :
    setting? name (es ++ fs) = (setting? name es <|> setting? name fs) := Value.lookup_append

theorem known_entry {name : String} (h : Text.ofString name ∈ fieldNames) {o : Option Value} :
    Known (entry name o) := by
  intro e he
  obtain ⟨v, -, rfl⟩ := Option.map_eq_some_iff.1 (Option.mem_toList.1 he)
  exact List.any_eq_true.2 ⟨_, h, beq_self_eq_true _⟩

section

variable {a b n x : Option Value}

theorem known_entriesOf : Known (entriesOf a b n x) :=
  known_append (known_append (known_append (known_entry (by decide)) (known_entry (by decide)))
    (known_entry (by decide))) (known_entry (by decide))

@[simp] theorem actor_entriesOf : setting? "actor" (entriesOf a b n x) = a := by
  simp (disch := decide) [entriesOf, setting?_append, setting?_entry_of_ne]

@[simp] theorem actorArgs_entriesOf : setting? "actor_args" (entriesOf a b n x) = b := by
  simp (disch := decide) [entriesOf, setting?_append, setting?_entry_of_ne]

@[simp] theorem workers_entriesOf : setting? "workers" (entriesOf a b n x) = n := by
  simp (disch := decide) [entriesOf, setting?_append, setting?_entry_of_ne]

@[simp] theorem timeoutSecs_entriesOf : setting? "timeout_secs" (entriesOf a b n x) = x := by
  simp (disch := decide) [entriesOf, setting?_append, setting?_entry_of_ne]

theorem saidBy_entriesOf_iff : l.SaidBy (entriesOf a b n x) ↔
    Option.Rel NamesActor a l.actor ∧ Option.Rel GivesArguments b l.actorArgs ∧
      Option.Rel CountsWorkers n l.workers ∧ Option.Rel LimitsTime x l.timeoutSecs := by
  constructor
  · rintro ⟨-, ha, hb, hn, hx⟩
    simp only [actor_entriesOf, actorArgs_entriesOf, workers_entriesOf, timeoutSecs_entriesOf]
      at ha hb hn hx
    exact ⟨ha, hb, hn, hx⟩
  · rintro ⟨ha, hb, hn, hx⟩
    exact {
      known := known_entriesOf
      actor := by rwa [actor_entriesOf]
      actorArgs := by rwa [actorArgs_entriesOf]
      workers := by rwa [workers_entriesOf]
      timeoutSecs := by rwa [timeoutSecs_entriesOf] }

end

end Config

end XofConformance
