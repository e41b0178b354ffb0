import ContentSync.Proofs.Diff.Exact
import Mathlib.Data.List.Forall2
import Mathlib.Data.List.Nodup
import Mathlib.Data.List.Pairwise
import Mathlib.Data.List.Perm.Subperm
import Mathlib.Data.Set.List

/-!
# What structural equality compares

Two objects are equal if they have equal values under the same keys, and two arrays whose elements have
ids of their own if they have equal elements under the same ids; all other arrays are equal if they are so
from place to place. Each of these says the same of both sides, so the equality has a reflection.

* `Json.Same` — structural equality, as a relation;
* `Json.Matched` / `Json.matched_iff` — values under the same keys; to find every key of one side on the
  other one is enough where both have equally many;
* `Json.same_object_iff`, `Json.same_array_iff_matched`, `Json.same_array_iff_forall₂` — the three ways in
  which values are compared;
* `Json.HasZeroId` / `Json.Same.hasId` — equal elements have one id, unless it is a floating-point zero;
* `Json.ZeroBeside` / `Json.indexable_of_forall₂` — when an array that equals another one place by place
  has ids of its own like that one;
* `Json.Same.refl`, `Json.Same.symm` — every value equals itself, and equality goes both ways.
-/

set_option autoImplicit false

namespace ContentSync

/-! ## Numbers -/

namespace Number

variable {m n o : Number}

/-- One of the two zeros of the floats. -/
def IsZeroFloat (n : Number) : Prop := ∃ negative size, n = .float negative size ∧ size.isZero = true

theorem same_refl (n : Number) : n.same n = true := by
  cases n <;> simp [same]

theorem same_comm (m n : Number) : m.same n = n.same m := by
  cases m <;> cases n <;> simp only [same]
  · exact BEq.comm
  · next s a t b =>
    by_cases h : a = b
    · subst h
      rw [BEq.comm (a := s)]
    · rw [beq_false_of_ne h, beq_false_of_ne (Ne.symm h)]
      rfl

theorem same_trans (h : m.same n = true) (h' : n.same o = true) : m.same o = true := by
  cases m <;> cases n <;> cases o <;> simp_all [same]
  grind

/-- Different numbers are equal only as the two zeros. -/
theorem eq_or_isZeroFloat_of_same (h : m.same n = true) :
    m = n ∨ m.IsZeroFloat ∧ n.IsZeroFloat := by
  cases m with
  | integer a =>
    cases n with
    | integer b => exact .inl (congrArg _ (beq_iff_eq.1 h))
    | float => cases h
  | float s a =>
    cases n with
    | integer => cases h
    | float t b =>
      simp only [same, Bool.and_eq_true, Bool.or_eq_true, beq_iff_eq] at h
      obtain ⟨rfl, rfl | hzero⟩ := h
      · exact .inl rfl
      · exact .inr ⟨⟨s, a, rfl, hzero⟩, t, a, rfl, hzero⟩

/-- The texts of the two zeros. -/
def zeroTexts : List String := ["0.0", "-0.0"]

theorem IsZeroFloat.text_mem (h : n.IsZeroFloat) : n.text ∈ zeroTexts := by
  obtain ⟨negative, size, rfl, hzero⟩ := h
  cases negative <;> simp [text, floatText, hzero, zeroTexts]

end Number

namespace Json

variable {v w u : Json} {i j k : String} {x y : List (String × Json)} {items others : List Json}

/-! ## Values inside values -/

theorem normalItems_iff : NormalItems items ↔ ∀ v ∈ items, v.Normal := by
  induction items with
  | nil => simp [NormalItems]
  | cons v rest ih => simp [NormalItems, ih]

theorem normalMembers_iff : NormalMembers x ↔ ∀ m ∈ x, m.2.Normal := by
  induction x with
  | nil => simp [NormalMembers]
  | cons m rest ih =>
    obtain ⟨k, v⟩ := m
    rw [NormalMembers, ih, List.forall_mem_cons]

/-- No key occurs twice in a normal object. -/
theorem Normal.nodup (h : (Json.object x).Normal) : (x.map (·.1)).Nodup :=
  List.pairwise_map.2 (h.1.imp fun {a b} hlt (heq : a.1 = b.1) => String.lt_irrefl _ (heq ▸ hlt))

theorem Normal.of_lookup (h : (Json.object x).Normal) (hv : lookup k x = some v) : v.Normal :=
  Normal.of_mem h.2 (mem_of_lookup hv)

theorem Normal.of_item (h : (Json.array items).Normal) (hv : v ∈ items) : v.Normal :=
  normalItems_iff.1 h v hv

/-! ## Values under the same keys -/

section Matched

variable {R S T : Json → Json → Prop}

/-- There are the same keys on both sides, and the values under each of them are related. -/
def Matched (R : Json → Json → Prop) (x y : List (String × Json)) : Prop :=
  ∀ k, Option.Rel R (lookup k x) (lookup k y)

/-- What is related is missing on both sides, or is there on both. -/
theorem cases_of_rel {o p : Option Json} (h : Option.Rel R o p) :
    (o = none ∧ p = none) ∨ ∃ v w, o = some v ∧ p = some w ∧ R v w := by
  cases h with
  | none => exact .inl ⟨rfl, rfl⟩
  | some h => exact .inr ⟨_, _, rfl, rfl, h⟩

theorem mem_keys_iff : k ∈ x.map (·.1) ↔ ∃ v, lookup k x = some v := by
  rw [← Diff.exists_mem_iff_lookup]
  simp

theorem Matched.exists (h : Matched R x y) (hv : lookup k x = some v) :
    ∃ w, lookup k y = some w ∧ R v w := by
  obtain ⟨hnone, -⟩ | ⟨v', w, hv', hw, hvw⟩ := cases_of_rel (h k)
  · cases hnone.symm.trans hv
  · obtain rfl := Option.some.inj (hv'.symm.trans hv)
    exact ⟨w, hw, hvw⟩

theorem Matched.exists_iff (h : Matched R x y) (k : String) :
    (∃ v, lookup k x = some v) ↔ ∃ w, lookup k y = some w := by
  obtain ⟨hv, hw⟩ | ⟨v, w, hv, hw, -⟩ := cases_of_rel (h k) <;> simp [hv, hw]

theorem Matched.refl (h : ∀ k v, lookup k x = some v → R v v) : Matched R x x := by
  intro k
  cases hv : lookup k x with
  | none => exact .none
  | some v => exact .some (h k v hv)

theorem Matched.symm (h : Matched R x y)
    (hsymm : ∀ k v w, lookup k x = some v → lookup k y = some w → R v w → S w v) : Matched S y x := by
  intro k
  obtain ⟨hv, hw⟩ | ⟨v, w, hv, hw, hvw⟩ := cases_of_rel (h k) <;> rw [hv, hw]
  · exact .none
  · exact .some (hsymm k v w hv hw hvw)

theorem Matched.trans {z : List (String × Json)} (h : Matched R x y) (h' : Matched S y z)
    (htrans : ∀ k v w u, lookup k x = some v → lookup k y = some w → lookup k z = some u →
      R v w → S w u → T v u) : Matched T x z := by
  intro k
  obtain ⟨hv, hw⟩ | ⟨v, w, hv, hw, hvw⟩ := cases_of_rel (h k)
  · obtain ⟨-, hu⟩ | ⟨w, -, hw', -, -⟩ := cases_of_rel (h' k)
    · rw [hv, hu]
      exact .none
    · cases hw.symm.trans hw'
  · obtain ⟨u, hu, hwu⟩ := h'.exists hw
    rw [hv, hu]
    exact .some (htrans k v w u hv hw hu hvw hwu)

/-- **Where both sides have equally many keys, each once, it is enough to look for those of one side.** -/
theorem matched_iff (hx : (x.map (·.1)).Nodup) (hy : (y.map (·.1)).Nodup) :
    Matched R x y ↔ x.length = y.length ∧
      ∀ k v, lookup k x = some v → ∃ w, lookup k y = some w ∧ R v w := by
  constructor
  · intro h
    have hperm : (x.map (·.1)).Perm (y.map (·.1)) := by
      rw [List.perm_ext_iff_of_nodup hx hy]
      intro k
      rw [mem_keys_iff, mem_keys_iff]
      exact h.exists_iff k
    exact ⟨by simpa using hperm.length_eq, fun k v hv => h.exists hv⟩
  · rintro ⟨hlength, h⟩ k
    cases hv : lookup k x with
    | some v =>
      obtain ⟨w, hw, hvw⟩ := h k v hv
      rw [hw]
      exact .some hvw
    | none =>
      cases hw : lookup k y with
      | none => exact .none
      | some w =>
        -- All keys of the left side are among those on the right, and there are no more of these.
        have hsub : x.map (·.1) ⊆ y.map (·.1) := by
          intro l hl
          obtain ⟨v, hv⟩ := mem_keys_iff.1 hl
          obtain ⟨w, hw, -⟩ := h l v hv
          exact mem_keys_iff.2 ⟨w, hw⟩
        have hperm := (List.Nodup.subperm hx hsub).perm_of_length_le (by simp [hlength])
        obtain ⟨v, hv'⟩ := mem_keys_iff.1 (hperm.mem_iff.2 (mem_keys_iff.2 ⟨w, hw⟩))
        rw [hv] at hv'
        cases hv'

end Matched

/-! ## The three comparisons -/

/-- Two values hold the same data. -/
abbrev Same (v w : Json) : Prop := v.structurallyEqual w = true

/-- What equal values look like: containers are told apart by their elements, anything else by itself. -/
inductive SameShape : Json → Json → Prop
  | null : SameShape .null .null
  | bool (b : Bool) : SameShape (.bool b) (.bool b)
  | number {m n : Number} (same : m.same n = true) : SameShape (.number m) (.number n)
  | string (s : String) : SameShape (.string s) (.string s)
  | array (items others : List Json) : SameShape (.array items) (.array others)
  | object (x y : List (String × Json)) : SameShape (.object x) (.object y)

theorem Same.shape (h : Same v w) : SameShape v w := by
  cases v <;> cases w <;> simp only [Same, structurallyEqual, reduceCtorEq, beq_iff_eq] at h
  · exact .null
  · exact h ▸ .bool _
  · exact .number h
  · exact h ▸ .string _
  · exact .array _ _
  · exact .object _ _

theorem eachByKey_iff :
    eachByKey x y = true ↔ ∀ m ∈ x, ∃ w, lookup m.1 y = some w ∧ Same m.2 w := by
  induction x with
  | nil => simp [eachByKey]
  | cons m rest ih =>
    obtain ⟨k, v⟩ := m
    rw [eachByKey, Bool.and_eq_true, ih, List.forall_mem_cons]
    refine and_congr_left fun _ => ?_
    cases lookup k y <;> simp

/-- **Objects are equal if they have equal values under the same keys.** -/
theorem same_object_iff (hx : (x.map (·.1)).Nodup) (hy : (y.map (·.1)).Nodup) :
    Same (.object x) (.object y) ↔ Matched Same x y := by
  rw [Same, structurallyEqual, Bool.and_eq_true, beq_iff_eq, eachByKey_iff, matched_iff hx hy]
  refine and_congr_right fun _ => ⟨fun h k v hv => h (k, v) (mem_of_lookup hv), ?_⟩
  rintro h ⟨k, v⟩ hmem
  exact h k v ((lookup_eq_some_iff hx).2 hmem)

/-- The elements of an array have ids, and no two the same, if that holds of the list of their ids. -/
theorem indexable_array_iff : Diff.Indexable (.array items) ↔
    none ∉ items.map entityId? ∧ (items.map entityId?).Nodup := by
  have hids : (∀ item ∈ items, ∃ id, item.HasId id) ↔ none ∉ items.map entityId? := by
    simp only [List.mem_map, not_exists, not_and, ← entityId?_eq_some_iff, ← Option.isSome_iff_exists,
      Option.isSome_iff_ne_none]
  rw [Diff.Indexable, hids]
  refine and_congr_right fun hsome => ?_
  rw [List.Nodup, List.pairwise_map]
  refine List.Pairwise.iff_of_mem fun {a b} ha hb => ?_
  simp only [← entityId?_eq_some_iff]
  constructor
  · intro hne heq
    cases hid : a.entityId? with
    | none => exact hsome (List.mem_map.2 ⟨a, ha, hid⟩)
    | some id => exact hne id hid (heq ▸ hid)
  · rintro hne id hid hid'
    exact hne (hid.trans hid'.symm)

theorem entityIds?_eq_some_iff {ids : List String} :
    entityIds? items = some ids ↔ items.map entityId? = ids.map some := by
  induction items generalizing ids with
  | nil => cases ids <;> simp [entityIds?]
  | cons v rest ih =>
    rw [entityIds?]
    constructor
    · intro h
      obtain ⟨id, hid, others, hothers, rfl⟩ : ∃ id, v.entityId? = some id ∧
          ∃ others, entityIds? rest = some others ∧ id :: others = ids := by
        simpa [Option.bind_eq_some_iff] using h
      rw [List.map_cons, List.map_cons, hid, ih.1 hothers]
    · intro h
      cases ids with
      | nil => cases h
      | cons id others =>
        obtain ⟨hid, hothers⟩ := List.cons.inj h
        simp [hid, ih.2 hothers]

/-- An array is a set keyed by id if it is not empty and its elements have ids of their own. -/
theorem keyed_iff : keyed items = true ↔ items ≠ [] ∧ Diff.Indexable (.array items) := by
  rw [indexable_array_iff, keyed]
  split
  · next ids hids =>
    rw [entityIds?_eq_some_iff] at hids
    have hdistinct : (ids.map some).Nodup ↔ ids.Nodup :=
      List.nodup_map_iff (Option.some_injective _)
    simp [hids, hdistinct]
  · next hnone =>
    refine iff_of_false nofun ?_
    rintro ⟨-, hsome, -⟩
    obtain ⟨ids, hids⟩ : items.map entityId? ∈ Set.range (List.map some) := by
      rw [Set.range_list_map]
      intro o ho
      exact Option.ne_none_iff_exists.1 fun h => hsome (h ▸ ho)
    rw [entityIds?_eq_some_iff.2 hids.symm] at hnone
    cases hnone

theorem length_identified (h : Diff.Indexable (.array items)) :
    (Diff.identified items).length = items.length := by
  obtain ⟨hids, -⟩ := h
  induction items with
  | nil => rfl
  | cons v rest ih =>
    obtain ⟨⟨id, hid⟩, hrest⟩ := List.forall_mem_cons.1 hids
    rw [Diff.identified_cons hid, List.length_cons, ih hrest, List.length_cons]

/-- Elements are found by id as in the index of the array. -/
theorem withId?_eq (id : String) (items : List Json) :
    withId? id items = lookup id (Diff.identified items) := by
  induction items with
  | nil => rfl
  | cons v rest ih =>
    rw [withId?, List.find?_cons]
    cases hid : v.entityId? with
    | none =>
      rw [show Diff.identified (v :: rest) = Diff.identified rest by simp [Diff.identified, hid]]
      exact ih
    | some other =>
      rw [Diff.identified_cons (entityId?_eq_some_iff.1 hid), lookup_cons, ← ih, withId?]
      by_cases heq : other = id
      · simp [heq]
      · simp [heq, beq_false_of_ne heq]

theorem eachById_iff :
    eachById items others = true ↔ ∀ v ∈ items, ∃ id w, v.HasId id ∧
      lookup id (Diff.identified others) = some w ∧ Same v w := by
  induction items with
  | nil => simp [eachById]
  | cons v rest ih =>
    rw [eachById, Bool.and_eq_true, ih, List.forall_mem_cons]
    refine and_congr_left fun _ => ?_
    simp only [← entityId?_eq_some_iff, withId?_eq]
    cases v.entityId? with
    | none => simp
    | some id => cases hw : lookup id (Diff.identified others) <;> simp [hw]

theorem eachInOrder_iff :
    items.length = others.length ∧ eachInOrder items others = true ↔
      List.Forall₂ Same items others := by
  induction items generalizing others with
  | nil => cases others <;> simp [eachInOrder]
  | cons v rest ih =>
    cases others with
    | nil => simp
    | cons w more =>
      rw [List.forall₂_cons, ← ih, eachInOrder]
      simp only [List.length_cons, Nat.add_right_cancel_iff, Bool.and_eq_true]
      exact and_left_comm

/-- **Arrays whose elements have ids of their own are equal if they have equal elements under the same
ids.** -/
theorem same_array_iff_matched (hx : Diff.Indexable (.array items))
    (hy : Diff.Indexable (.array others)) :
    Same (.array items) (.array others) ↔
      Matched Same (Diff.identified items) (Diff.identified others) := by
  have hnodup := Diff.nodup_identified hx.2
  rw [Same, structurallyEqual, Bool.and_eq_true, beq_iff_eq,
    matched_iff hnodup (Diff.nodup_identified hy.2), length_identified hx, length_identified hy]
  refine and_congr_right fun hlength => ?_
  simp only [lookup_eq_some_iff hnodup, Diff.mem_identified]
  split
  · rw [eachById_iff]
    constructor
    · rintro h id v ⟨hv, hid⟩
      obtain ⟨id', w, hid', hw, hvw⟩ := h v hv
      obtain rfl := hid.unique hid'
      exact ⟨w, hw, hvw⟩
    · intro h v hv
      obtain ⟨id, hid⟩ := hx.1 v hv
      obtain ⟨w, hw, hvw⟩ := h id v ⟨hv, hid⟩
      exact ⟨id, w, hid, hw, hvw⟩
  · next hnot =>
    -- Only an empty array is not keyed then, and it has no elements to compare.
    have hempty : items = [] := by
      by_contra hne
      have hne' : others ≠ [] := fun h => hne (List.eq_nil_of_length_eq_zero (hlength.trans (by simp [h])))
      exact hnot (Bool.and_eq_true_iff.2 ⟨keyed_iff.2 ⟨hne, hx⟩, keyed_iff.2 ⟨hne', hy⟩⟩)
    subst hempty
    simp [eachInOrder]

/-- **All other arrays are equal if they are so from place to place.** So are empty ones. -/
theorem same_array_iff_of_not_keyed (h : ¬ (keyed items = true ∧ keyed others = true)) :
    Same (.array items) (.array others) ↔ List.Forall₂ Same items others := by
  have hnot : (keyed items && keyed others) = false := by
    rw [Bool.eq_false_iff, ne_eq, Bool.and_eq_true]
    exact h
  rw [Same, structurallyEqual, hnot, Bool.and_eq_true, beq_iff_eq]
  exact eachInOrder_iff

theorem same_array_iff_forall₂
    (h : ¬ (Diff.Indexable (.array items) ∧ Diff.Indexable (.array others))) :
    Same (.array items) (.array others) ↔ List.Forall₂ Same items others :=
  same_array_iff_of_not_keyed fun hboth => h ⟨(keyed_iff.1 hboth.1).2, (keyed_iff.1 hboth.2).2⟩

/-! ## The ids of equal elements -/

/-- The id of an element is one of the two zeros of the floats. -/
def HasZeroId (item : Json) : Prop := ∃ n, item.field? "id" = some (.number n) ∧ n.IsZeroFloat

theorem not_hasZeroId_of_text (h : v.field? "id" = some (.string i)) : ¬ v.HasZeroId := by
  rintro ⟨n, hn, -⟩
  cases h.symm.trans hn

theorem HasZeroId.text_mem (h : v.HasZeroId) (hid : v.HasId i) : i ∈ Number.zeroTexts := by
  obtain ⟨n, hn, hzero⟩ := h
  have hhas : v.entityId? = some n.text := by simp [entityId?, hn]
  rw [hid.unique (entityId?_eq_some_iff.1 hhas)]
  exact hzero.text_mem

/-- What is in an object is in an equal one as well. -/
theorem Same.field? (h : Same v w) (hu : v.field? k = some u) :
    ∃ u', w.field? k = some u' ∧ Same u u' := by
  cases h.shape with
  | object x y =>
    rw [Same, structurallyEqual, Bool.and_eq_true, eachByKey_iff] at h
    exact h.2 _ (mem_of_lookup hu)
  | null | bool | number | string | array => cases hu

theorem Same.hasZeroId (h : Same v w) (hv : v.HasZeroId) : w.HasZeroId := by
  obtain ⟨n, hn, hzero⟩ := hv
  obtain ⟨u, hu, hsame⟩ := h.field? hn
  cases hsame.shape with
  | @number _ m heq =>
    refine ⟨m, hu, ?_⟩
    obtain rfl | ⟨-, hzero'⟩ := Number.eq_or_isZeroFloat_of_same heq
    · exact hzero
    · exact hzero'

/-- **Equal elements have the same id**, unless it is a zero. -/
theorem Same.hasId (h : Same v w) (hv : v.HasId i) :
    ∃ j, w.HasId j ∧ (i = j ∨ v.HasZeroId ∧ w.HasZeroId) := by
  have hfield : ∃ u, v.field? "id" = some u ∧ (u = .string i ∨ ∃ n, u = .number n ∧ n.text = i) := by
    cases hv with
    | text hs => exact ⟨_, hs, .inl rfl⟩
    | number hn => exact ⟨_, hn, .inr ⟨_, rfl, rfl⟩⟩
  obtain ⟨u, hu, hid⟩ := hfield
  obtain ⟨u', hu', hsame⟩ := h.field? hu
  obtain rfl | ⟨n, rfl, rfl⟩ := hid
  · cases hsame.shape
    exact ⟨i, entityId?_eq_some_iff.1 (by simp [entityId?, hu']), .inl rfl⟩
  · cases hsame.shape with
    | @number _ m heq =>
      refine ⟨m.text, entityId?_eq_some_iff.1 (by simp [entityId?, hu']), ?_⟩
      obtain rfl | ⟨hzero, hzero'⟩ := Number.eq_or_isZeroFloat_of_same heq
      · exact .inl rfl
      · exact .inr ⟨⟨n, hu, hzero⟩, m, hu', hzero'⟩

/-- Both ids read like a zero, and one of them is a floating-point zero. -/
def ZeroBeside (v w : Json) : Prop :=
  (v.HasZeroId ∨ w.HasZeroId) ∧ (∃ i ∈ Number.zeroTexts, v.HasId i) ∧ ∃ j ∈ Number.zeroTexts, w.HasId j

/-- Elements with two ids are equal to elements with a single one only if these ids are zeros. -/
theorem zeroBeside_of_same {v' w' : Json} (hv : Same v v') (hw : Same w w') (hi : v.HasId i)
    (hj : w.HasId j) (hne : i ≠ j) (hk : v'.HasId k) (hk' : w'.HasId k) :
    ZeroBeside v w ∧ ZeroBeside v' w' := by
  obtain ⟨_, hi', heq⟩ := hv.hasId hi
  obtain rfl := hk.unique hi'
  obtain ⟨_, hj', heq'⟩ := hw.hasId hj
  obtain rfl := hk'.unique hj'
  obtain rfl | ⟨hzero, hzero'⟩ := heq
  · obtain rfl | ⟨hzero, hzero'⟩ := heq'
    · exact absurd rfl hne
    · have hmem := hzero'.text_mem hk'
      exact ⟨⟨.inr hzero, ⟨i, hmem, hi⟩, j, hzero.text_mem hj, hj⟩,
        .inr hzero', ⟨i, hmem, hk⟩, i, hmem, hk'⟩
  · have hmem := hzero'.text_mem hk
    refine ⟨⟨.inl hzero, ⟨i, hzero.text_mem hi, hi⟩, j, ?_, hj⟩, .inl hzero', ⟨k, hmem, hk⟩, k, hmem, hk'⟩
    obtain rfl | ⟨hzero, -⟩ := heq'
    · exact hmem
    · exact hzero.text_mem hj

/-- **An array that equals one with ids of its own, place by place, has them too**, as long as no zeros
stand beside each other in one of the two. -/
theorem indexable_of_forall₂ (h : List.Forall₂ Same items others)
    (hx : Diff.Indexable (.array items))
    (apart : items.Pairwise (fun v w => ¬ ZeroBeside v w) ∨
      others.Pairwise fun v w => ¬ ZeroBeside v w) : Diff.Indexable (.array others) := by
  obtain ⟨hlength, hsame⟩ := List.forall₂_iff_get.1 h
  obtain ⟨hids, hdistinct⟩ := hx
  have hid : ∀ n (hn : n < others.length), ∃ i, items[n].HasId i ∧ Same items[n] others[n] :=
    fun n hn => by
      obtain ⟨i, hi⟩ := hids items[n] (List.getElem_mem _)
      exact ⟨i, hi, hsame n (hlength ▸ hn) hn⟩
  constructor
  · intro w hw
    obtain ⟨n, hn, rfl⟩ := List.mem_iff_getElem.1 hw
    obtain ⟨i, hi, hvw⟩ := hid n hn
    obtain ⟨j, hj, -⟩ := hvw.hasId hi
    exact ⟨j, hj⟩
  · rw [List.pairwise_iff_getElem] at hdistinct apart ⊢
    intro m n hm hn hlt k hk hk'
    obtain ⟨i, hi, hv⟩ := hid m hm
    obtain ⟨j, hj, hw⟩ := hid n hn
    have hne : i ≠ j := by
      rintro rfl
      exact hdistinct m n (hlength ▸ hm) (hlength ▸ hn) hlt i hi hj
    obtain ⟨hbeside, hbeside'⟩ := zeroBeside_of_same hv hw hi hj hne hk hk'
    rw [List.pairwise_iff_getElem] at apart
    obtain apart | apart := apart
    · exact apart m n _ _ hlt hbeside
    · exact apart m n hm hn hlt hbeside'

/-! ## Reflection -/

/-- **Every value equals itself.** -/
theorem Same.refl (normal : v.Normal) : Same v v := by
  induction v using induct with
  | null => simp [Same, structurallyEqual]
  | bool b => simp [Same, structurallyEqual]
  | number n => simp [Same, structurallyEqual, n.same_refl]
  | string s => simp [Same, structurallyEqual]
  | array items ih =>
    have hitem : ∀ v ∈ items, Same v v := fun v hv => ih v hv (normal.of_item hv)
    by_cases hx : Diff.Indexable (.array items)
    · rw [same_array_iff_matched hx hx]
      exact .refl fun k v hv => hitem v (Diff.mem_identified.1 (mem_of_lookup hv)).1
    · rw [same_array_iff_forall₂ fun h => hx h.1, List.forall₂_same]
      exact hitem
  | object members ih =>
    rw [same_object_iff normal.nodup normal.nodup]
    exact .refl fun k v hv => ih _ (mem_of_lookup hv) (normal.of_lookup hv)

/-- **Equality goes both ways.** -/
theorem Same.symm (normal : v.Normal) (normal' : w.Normal) (h : Same v w) : Same w v := by
  induction v using induct generalizing w with
  | null =>
    cases h.shape
    exact h
  | bool b =>
    cases h.shape
    exact h
  | string s =>
    cases h.shape
    exact h
  | number n =>
    cases h.shape with
    | @number _ m heq => simpa [Same, structurallyEqual, m.same_comm n] using heq
  | array items ih =>
    cases h.shape with
    | array _ others =>
      have hitem : ∀ v ∈ items, ∀ w ∈ others, Same v w → Same w v :=
        fun v hv w hw => ih v hv (normal.of_item hv) (normal'.of_item hw)
      by_cases hboth : Diff.Indexable (.array items) ∧ Diff.Indexable (.array others)
      · rw [same_array_iff_matched hboth.1 hboth.2] at h
        rw [same_array_iff_matched hboth.2 hboth.1]
        exact h.symm fun k v w hv hw => hitem v (Diff.mem_identified.1 (mem_of_lookup hv)).1 w
          (Diff.mem_identified.1 (mem_of_lookup hw)).1
      · rw [same_array_iff_forall₂ hboth] at h
        rw [same_array_iff_forall₂ fun h => hboth h.symm]
        obtain ⟨hlength, hsame⟩ := List.forall₂_iff_get.1 h
        refine List.forall₂_iff_get.2 ⟨hlength.symm, fun n hn hn' => ?_⟩
        exact hitem _ (List.getElem_mem _) _ (List.getElem_mem _) (hsame n hn' hn)
  | object x ih =>
    cases h.shape with
    | object _ y =>
      rw [same_object_iff normal.nodup normal'.nodup] at h
      rw [same_object_iff normal'.nodup normal.nodup]
      exact h.symm fun k v w hv hw hvw =>
        ih _ (mem_of_lookup hv) (normal.of_lookup hv) (normal'.of_lookup hw) hvw

theorem structurallyEqual_comm (normal : v.Normal) (normal' : w.Normal) :
    v.structurallyEqual w = w.structurallyEqual v :=
  Bool.eq_iff_iff.2 ⟨Same.symm normal normal', Same.symm normal' normal⟩

end Json

end ContentSync
