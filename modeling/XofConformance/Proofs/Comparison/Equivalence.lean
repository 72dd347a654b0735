import XofConformance.Proofs.Comparison.Lacking

/-!
# Equality up to the case of digests is an equivalence

Where no object has a key twice, two objects are equal if they have the same keys and equal values
under each of them, in whatever order. So equality is symmetric and transitive; only a NaN that
stands alone is not equal to itself. The same holds up to the case of digests.

    same true (.object xs) (.object ys) = true ↔ xs.SameUnder (same true) ys
                                                                        (same_object_iff_under)
    Equivalence fun a b : {v : Json // v.Definite} => deepEqual a b = true    (deepEqual_congruence)
-/

namespace XofConformance

/-! ## Equality of values inside others -/

namespace Json

/-- Two lists of fields have the same keys, and related values under each of them. -/
structure SameUnder (R : Text → Json → Json → Prop) (xs ys : List (Text × Json)) : Prop where
  keys : ∀ key, (lookup key xs).isSome = (lookup key ys).isSome
  values : ∀ key x y, lookup key xs = some x → lookup key ys = some y → R key x y

variable {a b c v : Json} {xs ys zs : List (Text × Json)}

theorem SameUnder.imp {R S : Text → Json → Json → Prop} (h : SameUnder R xs ys)
    (hrs : ∀ key x y, lookup key xs = some x → lookup key ys = some y → R key x y → S key x y) :
    SameUnder S xs ys where
  keys := h.keys
  values key x y hx hy := hrs key x y hx hy (h.values key x y hx hy)

theorem SameUnder.flip {R : Text → Json → Json → Prop} (h : SameUnder R xs ys) :
    SameUnder (fun key x y => R key y x) ys xs where
  keys key := (h.keys key).symm
  values key y x hy hx := h.values key x y hx hy

theorem SameUnder.trans {R S T : Text → Json → Json → Prop} (hxy : SameUnder R xs ys)
    (hyz : SameUnder S ys zs)
    (h : ∀ key x y z, lookup key xs = some x → lookup key ys = some y → lookup key zs = some z →
      R key x y → S key y z → T key x z) : SameUnder T xs zs where
  keys key := (hxy.keys key).trans (hyz.keys key)
  values key x z hx hz := by
    have hsome : (lookup key ys).isSome = true := by
      rw [← hxy.keys, hx]
      rfl
    obtain ⟨y, hy⟩ := Option.isSome_iff_exists.1 hsome
    exact h key x y z hx hy hz (hxy.values key x y hx hy) (hyz.values key y z hy hz)

/-- Fields whose values are images under their keys are the same under a relation if their sources
are the same under the relation of the images. -/
theorem sameUnder_iff_of_lookup {R : Text → Json → Json → Prop} {f : Text → Json → Json}
    {xs' ys' : List (Text × Json)} (hxs : ∀ key, lookup key xs' = (lookup key xs).map (f key))
    (hys : ∀ key, lookup key ys' = (lookup key ys).map (f key)) :
    SameUnder R xs' ys' ↔ SameUnder (fun key x y => R key (f key x) (f key y)) xs ys := by
  constructor
  · rintro ⟨hkeys, hvalues⟩
    refine ⟨fun key => ?_, fun key x y hx hy => hvalues key _ _ ?_ ?_⟩
    · have hkey := hkeys key
      rwa [hxs, hys, Option.isSome_map, Option.isSome_map] at hkey
    · rw [hxs, hx, Option.map_some]
    · rw [hys, hy, Option.map_some]
  · rintro ⟨hkeys, hvalues⟩
    refine ⟨fun key => ?_, fun key x' y' hx' hy' => ?_⟩
    · rw [hxs, hys, Option.isSome_map, Option.isSome_map, hkeys]
    · rw [hxs] at hx'
      rw [hys] at hy'
      obtain ⟨x, hx, rfl⟩ := Option.map_eq_some_iff.1 hx'
      obtain ⟨y, hy, rfl⟩ := Option.map_eq_some_iff.1 hy'
      exact hvalues key x y hx hy

/-- Objects that have each key once are equal if they have the same keys and equal values under
each of them. -/
theorem same_object_iff_under {inside : Bool} (hxs : (xs.map Prod.fst).Nodup)
    (hys : (ys.map Prod.fst).Nodup) : same inside (.object xs) (.object ys) = true ↔
      SameUnder (fun _ x y => same true x y = true) xs ys := by
  constructor
  · intro h
    have hfields := sameFields_iff.1 (same_object_iff.1 h).2
    refine ⟨fun key => ?_, fun key x y hx hy => ?_⟩
    · rw [Bool.eq_iff_iff]
      refine ⟨fun hkey => ?_, isSome_lookup_of_same h hxs⟩
      obtain ⟨x, hx⟩ := Option.isSome_iff_exists.1 hkey
      obtain ⟨y, hy, -⟩ := hfields _ (mem_of_lookup_eq_some hx)
      rw [hy]
      rfl
    · obtain ⟨y', hy', hsame⟩ := hfields _ (mem_of_lookup_eq_some hx)
      cases hy.symm.trans hy'
      exact hsame
  · rintro ⟨hkeys, hvalues⟩
    have hperm : (xs.map Prod.fst).Perm (ys.map Prod.fst) :=
      (List.perm_ext_iff_of_nodup hxs hys).2 fun key => by
        rw [← isSome_lookup_iff, ← isSome_lookup_iff, hkeys]
    have hlength : xs.length = ys.length := by simpa using hperm.length_eq
    refine same_object_iff.2 ⟨hlength, sameFields_iff.2 fun p hp => ?_⟩
    have hx : lookup p.1 xs = some p.2 := (lookup_eq_some_iff hxs).2 hp
    have hsome : (lookup p.1 ys).isSome = true := by
      rw [← hkeys, hx]
      rfl
    obtain ⟨y, hy⟩ := Option.isSome_iff_exists.1 hsome
    exact ⟨y, hy, hvalues _ _ _ hx hy⟩

theorem KeysOnce.same_symm (ha : KeysOnce a) (hb : KeysOnce b) (h : same true a b = true) :
    same true b a = true := by
  induction ha generalizing b with
  | null => exact sameKey_symm rfl h
  | bool b => exact sameKey_symm rfl h
  | number n => exact sameKey_symm rfl h
  | text t => exact sameKey_symm rfl h
  | @array xs _ ih =>
    cases hb with
    | @array ys hys =>
      have hitems := (List.forall₂_and_left xs ys).2 ⟨ih, sameItems_iff.1 h⟩
      have hitems' := (List.forall₂_and_left ys xs).2 ⟨hys, hitems.flip⟩
      exact sameItems_iff.2 (hitems'.imp fun y x hyx => hyx.2.1 hyx.1 hyx.2.2)
    | _ => cases h
  | object hxs _ ih =>
    cases hb with
    | object hys hvalues =>
      refine (same_object_iff_under hys hxs).2
        (((same_object_iff_under hxs hys).1 h).flip.imp fun key y x hy hx hsame => ?_)
      exact ih _ (mem_of_lookup_eq_some hx) (hvalues _ (mem_of_lookup_eq_some hy)) hsame
    | _ => cases h

theorem same_trans_of_isKey (ha : a.isKey = true) (hab : same true a b = true)
    (hbc : same true b c = true) : same true a c = true :=
  (sameKey_iff ha).2 (((sameKey_iff ha).1 hab).trans
    ((sameKey_iff (isKey_of_sameKey ha hab)).1 hbc))

theorem KeysOnce.same_trans (ha : KeysOnce a) (hb : KeysOnce b) (hc : KeysOnce c)
    (hab : same true a b = true) (hbc : same true b c = true) : same true a c = true := by
  induction ha generalizing b c with
  | null | bool _ | number _ | text _ => exact same_trans_of_isKey rfl hab hbc
  | @array xs _ ih =>
    cases hb with
    | @array ys hys =>
      cases hc with
      | @array zs hzs =>
        have hxy := (List.forall₂_and_left xs ys).2 ⟨ih, sameItems_iff.1 hab⟩
        have hyz := (List.forall₂_and_left ys zs).2 ⟨hys, sameItems_iff.1 hbc⟩
        have hzy := (List.forall₂_and_left zs ys).2 ⟨hzs, hyz.flip⟩
        exact sameItems_iff.2 (forall₂_trans hxy hzy.flip fun x y z hx hz =>
          hx.1 hz.2.1 hz.1 hx.2 hz.2.2)
      | _ => cases hbc
    | _ => cases hab
  | object hxs _ ih =>
    cases hb with
    | object hys hyvalues =>
      cases hc with
      | object hzs hzvalues =>
        refine (same_object_iff_under hxs hzs).2 (((same_object_iff_under hxs hys).1 hab).trans
          ((same_object_iff_under hys hzs).1 hbc) fun key x y z hx hy hz hxy hyz => ?_)
        exact ih _ (mem_of_lookup_eq_some hx) (hyvalues _ (mem_of_lookup_eq_some hy))
          (hzvalues _ (mem_of_lookup_eq_some hz)) hxy hyz
      | _ => cases hbc
    | _ => cases hab

end Json

namespace Comparison

open Json (KeysOnce NaNFree Definite SameUnder lookup same)

variable {a b c v x y : Json} {xs ys : List (Text × Json)} {items items' : List Json}

/-! ## Normal values -/

theorem key?_normal (v : Json) : (normal v).key? = v.key? := by cases v <;> rfl

/-! ## An equivalence -/

theorem deepEqual_symm (ha : Definite a) (hb : Definite b) (h : deepEqual a b = true) :
    deepEqual b a = true := by
  rw [deepEqual_eq_same hb.nanFree]
  rw [deepEqual_eq_same ha.nanFree] at h
  exact (keysOnce_normal ha.keysOnce).same_symm (keysOnce_normal hb.keysOnce) h

theorem deepEqual_trans (ha : Definite a) (hb : Definite b) (hc : Definite c)
    (hab : deepEqual a b = true) (hbc : deepEqual b c = true) : deepEqual a c = true := by
  rw [deepEqual_eq_same ha.nanFree] at hab ⊢
  rw [deepEqual_eq_same hb.nanFree] at hbc
  exact (keysOnce_normal ha.keysOnce).same_trans (keysOnce_normal hb.keysOnce)
    (keysOnce_normal hc.keysOnce) hab hbc

/-! ## A congruence -/

/-- Values without parts are equal if they are null, the same text, or the same number; a truth
value counts as 0 or 1. -/
theorem deepEqual_key_iff (ha : Definite a) (hkey : a.isKey = true) :
    deepEqual a b = true ↔ a.key? = b.key? := by
  have hnormal : (normal a).isKey = true := by
    rw [Json.isKey_iff, key?_normal, ← Json.isKey_iff]
    exact hkey
  rw [deepEqual_eq_same ha.nanFree, ← key?_normal a, ← key?_normal b]
  exact Json.sameKey_iff hnormal

theorem deepEqual_array_iff (h : Definite (.array items)) :
    deepEqual (.array items) (.array items') = true ↔
      List.Forall₂ (fun x y => deepEqual x y = true) items items' := by
  have hinside : ∀ x ∈ items, ∀ y, deepEqual x y = same true (normal x) (normal y) := by
    cases h.nanFree with
    | array hitems => exact fun x hx y => deepEqual_eq_same (hitems x hx)
  rw [deepEqual_eq_same h.nanFree]
  show Json.sameItems (normalItems items) (normalItems items') = true ↔ _
  rw [Json.sameItems_iff, normalItems_eq, normalItems_eq, List.forall₂_map_left_iff,
    List.forall₂_map_right_iff]
  exact forall₂_congr_left fun x hx y => by rw [hinside x hx]

/-- Two values are equal under a key: as texts in lower case if it is that of a digest. -/
def EqualUnder (key : Text) (x y : Json) : Prop :=
  if key = digestKey then Text.lower x.shown = Text.lower y.shown else deepEqual x y = true

theorem same_normal_iff_equalUnder {key : Text} (hx : NaNFree x) :
    same true (if key = digestKey then .text (Text.lower x.shown) else normal x)
      (if key = digestKey then .text (Text.lower y.shown) else normal y) = true ↔
        EqualUnder key x y := by
  unfold EqualUnder
  split
  · exact beq_iff_eq
  · rw [deepEqual_eq_same hx]

theorem deepEqual_object_iff (hxs : Definite (.object xs)) (hys : Definite (.object ys)) :
    deepEqual (.object xs) (.object ys) = true ↔ SameUnder EqualUnder xs ys := by
  have hnodup : ∀ {fields : List (Text × Json)}, KeysOnce (.object fields) →
      ((normalFields fields).map Prod.fst).Nodup := by
    intro fields h
    cases h with
    | object hkeys _ => rwa [keys_normalFields]
  have hfree : ∀ {key x}, lookup key xs = some x → NaNFree x := by
    intro key x hx
    cases hxs.nanFree with
    | object h => exact h _ (Json.mem_of_lookup_eq_some hx)
  rw [deepEqual_eq_same hxs.nanFree]
  show same true (.object (normalFields xs)) (.object (normalFields ys)) = true ↔ _
  rw [Json.same_object_iff_under (hnodup hxs.keysOnce) (hnodup hys.keysOnce),
    Json.sameUnder_iff_of_lookup (fun _ => lookup_normalFields xs) fun _ => lookup_normalFields ys]
  constructor
  · exact fun h => h.imp fun key x y hx _ => (same_normal_iff_equalUnder (hfree hx)).1
  · exact fun h => h.imp fun key x y hx _ => (same_normal_iff_equalUnder (hfree hx)).2

/-- **Equality up to the case of digests.** On values that have each key once and no NaN it is an
equivalence; whatever is read from a text has each key once. Values without parts are equal if they are the same constant, where a truth value
counts as 0 or 1 and numbers count by their exact values; arrays are equal exactly if they are as
long and equal item by item; and objects exactly if they have the same keys, in any order, equal
texts in lower case under the key of a digest and equal values under every other key. -/
theorem deepEqual_congruence :
    Equivalence (fun a b : {v : Json // v.Definite} => deepEqual a b = true) ∧
    (∀ a b : Json, a.Definite → a.isKey = true → (deepEqual a b = true ↔ a.key? = b.key?)) ∧
    (∀ items items' : List Json, Definite (.array items) →
      (deepEqual (.array items) (.array items') = true ↔
        List.Forall₂ (fun x y => deepEqual x y = true) items items')) ∧
    (∀ xs ys : List (Text × Json), Definite (.object xs) → Definite (.object ys) →
      (deepEqual (.object xs) (.object ys) = true ↔
        (∀ key, (lookup key xs).isSome = (lookup key ys).isSome) ∧
        ∀ key x y, lookup key xs = some x → lookup key ys = some y →
          if key = "md" then Text.lower x.shown = Text.lower y.shown else deepEqual x y = true)) ∧
    ∀ (t : Text) (v : Json), Json.read t = .ok v → v.NaNFree → v.Definite := by
  refine ⟨⟨fun a => deepEqual_refl a.2, fun {a b} => deepEqual_symm a.2 b.2,
    fun {a b c} => deepEqual_trans a.2 b.2 c.2⟩, fun a b => deepEqual_key_iff,
    fun items items' => deepEqual_array_iff, fun xs ys hxs hys => ?_,
    fun t v hread hfree => ⟨Json.keysOnce_of_read hread, hfree⟩⟩
  refine (deepEqual_object_iff hxs hys).trans ⟨fun h => ⟨h.keys, h.values⟩, fun h => ⟨h.1, h.2⟩⟩

/-- A round. -/
def lowerRound : List (Text × Json) := [("md", .text "ab"), ("outLen", .int 8)]

/-- The round with its digest in upper case, its length as a fraction, and its keys the other way
round. -/
def upperRound : List (Text × Json) :=
  [("outLen", .number (.float (.finite 8))), ("md", .text "AB")]

theorem definite_lowerRound : Definite (.object lowerRound) where
  keysOnce := .object (by decide) (List.forall_mem_cons.2 ⟨.text _,
    List.forall_mem_singleton.2 (.number _)⟩)
  nanFree := .object (List.forall_mem_cons.2 ⟨.text _,
    List.forall_mem_singleton.2 (.number nofun)⟩)

theorem definite_upperRound : Definite (.object upperRound) where
  keysOnce := .object (by decide) (List.forall_mem_cons.2 ⟨.number _,
    List.forall_mem_singleton.2 (.text _)⟩)
  nanFree := .object (List.forall_mem_cons.2 ⟨.number nofun,
    List.forall_mem_singleton.2 (.text _)⟩)

/-- The two rounds are equal, and so are lists with one of them each; and so are a truth value that
is read and a number. -/
theorem deepEqual_congruence_rounds : Definite (.object lowerRound) ∧
    Definite (.object upperRound) ∧
    deepEqual (.object lowerRound) (.object upperRound) = true ∧
    deepEqual (.array [.object lowerRound]) (.array [.object upperRound]) = true ∧
    deepEqual (.bool true) (.int 1) = true := by
  have hequal : deepEqual (.object lowerRound) (.object upperRound) = true := by
    refine (deepEqual_congruence.2.2.2.1 _ _ definite_lowerRound definite_upperRound).2
      ⟨fun key => ?_, fun key x y hx hy => ?_⟩
    · rw [Bool.eq_iff_iff, Json.isSome_lookup_iff, Json.isSome_lookup_iff]
      exact (show (lowerRound.map Prod.fst).Perm (upperRound.map Prod.fst) by decide).mem_iff
    · have hfields := Json.mem_of_lookup_eq_some hx
      rw [lowerRound, List.mem_cons, List.mem_singleton] at hfields
      rcases hfields with h | h
      · cases h
        cases hy
        rw [if_pos rfl]
        rfl
      · cases h
        cases hy
        rw [if_neg (by decide)]
        rfl
  have hlist : Definite (.array [.object lowerRound]) :=
    ⟨.array (List.forall_mem_singleton.2 definite_lowerRound.keysOnce),
      .array (List.forall_mem_singleton.2 definite_lowerRound.nanFree)⟩
  have hbool : Definite (.bool true) := deepEqual_congruence.2.2.2.2 "true" _ rfl (.bool _)
  exact ⟨definite_lowerRound, definite_upperRound, hequal,
    (deepEqual_congruence.2.2.1 _ _ hlist).2 (.cons hequal .nil),
    (deepEqual_congruence.2.1 _ (.int 1) hbool rfl).2 rfl⟩

end Comparison

end XofConformance
