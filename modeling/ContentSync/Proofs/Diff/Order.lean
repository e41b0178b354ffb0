import ContentSync.Proofs.Diff.Mirror
import Mathlib.Logic.Relation

/-!
# The order of elements with ids

Where the elements of an array have ids of their own, their order tells nothing: it can be changed
anywhere inside a value, and every comparison stays as it was.

* `Json.Reorders`, `Json.Reordered` — one array in another order, and any number of them;
* `Json.Reorders.entityId?_eq`, `Json.Reorders.normal` — what one step keeps;
* `Json.same_array_of_perm` — what an array with ids of its own is equal to;
* `Json.Reorders.structurallyEqual_eq`, `Json.Reordered.structurallyEqual_eq` — structural equality
  after one step, and after all of them on both sides;
* `Diff.IndexedAlike` / `Diff.indexedAlike_of_reordered` — the index of a collection;
* `Diff.compareIndexes_congr`, `Diff.diff_eq_of_reordered` — the comparison of payloads;
* `Diff.order_irrelevant` — all of this, and where the order does matter.
-/

set_option autoImplicit false

namespace ContentSync

namespace Json

variable {v v' w w' : Json} {i k l : String} {x y z : List (String × Json)} {items others : List Json}
  {R : Json → Json → Prop}

/-- One array is put into another order, somewhere inside a value. Its elements have ids of their own, of
which none is a floating-point zero. -/
inductive Reorders : Json → Json → Prop
  | here {items others : List Json} (indexable : Diff.Indexable (.array items))
    (nonzero : ∀ v ∈ items, ¬ v.HasZeroId) (perm : items.Perm others) :
    Reorders (.array items) (.array others)
  | element {v v' : Json} (before after : List Json) (inside : Reorders v v') :
    Reorders (.array (before ++ v :: after)) (.array (before ++ v' :: after))
  | member {v v' : Json} (before after : List (String × Json)) (k : String)
    (inside : Reorders v v') :
    Reorders (.object (before ++ (k, v) :: after)) (.object (before ++ (k, v') :: after))

/-- Any number of arrays are put into another order. -/
abbrev Reordered : Json → Json → Prop := Relation.ReflTransGen Reorders

/-! ## One step -/

/-- Of the members of two objects only one has another value. -/
theorem matched_middle (hrefl : ∀ v, R v v) (h : R v v') (before after : List (String × Json))
    (k : String) : Matched R (before ++ (k, v) :: after) (before ++ (k, v') :: after) := by
  intro l
  have hself : ∀ o : Option Json, Option.Rel R o o := fun o => by
    cases o with
    | none => exact .none
    | some u => exact .some (hrefl u)
  induction before with
  | nil =>
    rw [List.nil_append, List.nil_append, lookup_cons, lookup_cons]
    split
    · exact .some h
    · exact hself _
  | cons m before ih =>
    obtain ⟨k', u⟩ := m
    rw [List.cons_append, List.cons_append, lookup_cons, lookup_cons]
    split
    · exact .some (hrefl u)
    · exact ih

/-- Only containers have an order. -/
theorem Reorders.container (h : Reorders v v') :
    (∃ items others, v = .array items ∧ v' = .array others) ∨
      ∃ x y, v = .object x ∧ v' = .object y := by
  cases h with
  | here | element => exact .inl ⟨_, _, rfl, rfl⟩
  | member => exact .inr ⟨_, _, rfl, rfl⟩

/-- The id of an element is kept. -/
theorem Reorders.entityId?_eq (h : Reorders v v') : v.entityId? = v'.entityId? := by
  cases h with
  | here | element => rfl
  | @member u u' before after k inside =>
    have hmatched := matched_middle (R := fun a b => a = b ∨ Reorders a b) (fun _ => .inl rfl)
      (.inr inside) before after k "id"
    simp only [entityId?, field?]
    obtain ⟨hid, hid'⟩ | ⟨i, i', hid, hid', rfl | hinside⟩ := cases_of_rel hmatched <;> rw [hid, hid']
    obtain ⟨_, _, rfl, rfl⟩ | ⟨_, _, rfl, rfl⟩ := hinside.container <;> rfl

theorem Reorders.normal (h : Reorders v v') (normal : v.Normal) : v'.Normal := by
  induction h with
  | here _ _ perm =>
    exact normalItems_iff.2 fun u hu => normal.of_item (perm.mem_iff.2 hu)
  | @element u u' before after _ ih =>
    have hitem : ∀ w ∈ before ++ u :: after, w.Normal := fun w => normal.of_item
    simp only [List.forall_mem_append, List.forall_mem_cons] at hitem
    obtain ⟨hbefore, hu, hafter⟩ := hitem
    refine normalItems_iff.2 ?_
    simp only [List.forall_mem_append, List.forall_mem_cons]
    exact ⟨hbefore, ih hu, hafter⟩
  | @member u u' before after k _ ih =>
    obtain ⟨hsorted, hmembers⟩ := normal
    rw [normalMembers_iff] at hmembers
    simp only [List.forall_mem_append, List.forall_mem_cons] at hmembers
    obtain ⟨hbefore, hu, hafter⟩ := hmembers
    constructor
    · -- The keys are the same, and they alone are sorted.
      have hkeys : (before ++ (k, u') :: after).map Prod.fst =
          (before ++ (k, u) :: after).map Prod.fst := by simp
      rw [← List.pairwise_map (f := Prod.fst) (R := (· < ·))] at hsorted ⊢
      rw [hkeys]
      exact hsorted
    · rw [normalMembers_iff]
      simp only [List.forall_mem_append, List.forall_mem_cons]
      exact ⟨hbefore, ih hu, hafter⟩

/-! ## Equality -/

theorem keyed_eq_of_perm (h : (items.map entityId?).Perm (others.map entityId?)) :
    keyed items = keyed others := by
  have hempty : items = [] ↔ others = [] := by
    rw [← List.map_eq_nil_iff (f := entityId?), ← List.map_eq_nil_iff (f := entityId?) (l := others)]
    exact ⟨fun hnil => (hnil ▸ h).nil_eq.symm, fun hnil => (hnil ▸ h).eq_nil⟩
  rw [Bool.eq_iff_iff, keyed_iff, keyed_iff, indexable_array_iff, indexable_array_iff, h.nodup_iff,
    h.mem_iff, ne_eq, ne_eq, hempty]

theorem eachById_middle (hid : v.entityId? = v'.entityId?)
    (h : ∀ w, v.structurallyEqual w = v'.structurallyEqual w) (before after : List Json) :
    eachById (before ++ v :: after) others = eachById (before ++ v' :: after) others := by
  induction before with
  | nil => simp only [List.nil_append, eachById, hid, h]
  | cons u before ih => simp only [List.cons_append, eachById, ih]

theorem eachInOrder_middle (h : ∀ w, v.structurallyEqual w = v'.structurallyEqual w)
    (before after : List Json) :
    eachInOrder (before ++ v :: after) others = eachInOrder (before ++ v' :: after) others := by
  induction before generalizing others with
  | nil => cases others <;> simp only [List.nil_append, eachInOrder, h]
  | cons u before ih => cases others <;> simp only [List.cons_append, eachInOrder, ih]

theorem eachByKey_middle (h : ∀ w, v.structurallyEqual w = v'.structurallyEqual w)
    (before after : List (String × Json)) (k : String) :
    eachByKey (before ++ (k, v) :: after) y = eachByKey (before ++ (k, v') :: after) y := by
  induction before with
  | nil => simp only [List.nil_append, eachByKey, h]
  | cons m before ih =>
    obtain ⟨l, u⟩ := m
    simp only [List.cons_append, eachByKey, ih]

theorem indexable_of_perm (h : Diff.Indexable (.array items)) (perm : items.Perm others) :
    Diff.Indexable (.array others) := by
  have hids := perm.map entityId?
  rw [indexable_array_iff] at h ⊢
  exact ⟨fun hnone => h.1 (hids.mem_iff.2 hnone), hids.nodup_iff.1 h.2⟩

/-- The index of an array does not depend on the order. -/
theorem lookup_identified_of_perm (h : Diff.Indexable (.array items)) (perm : items.Perm others)
    (k : String) : lookup k (Diff.identified items) = lookup k (Diff.identified others) := by
  ext u
  rw [lookup_eq_some_iff (Diff.nodup_identified h.2),
    lookup_eq_some_iff (Diff.nodup_identified (indexable_of_perm h perm).2),
    Diff.mem_identified, Diff.mem_identified, perm.mem_iff]

/-- **What an array with ids of its own is equal to does not depend on its order.** -/
theorem same_array_of_perm (indexable : Diff.Indexable (.array items))
    (nonzero : ∀ v ∈ items, ¬ v.HasZeroId) (perm : items.Perm others)
    (h : Same (.array items) w) : Same (.array others) w := by
  cases h.shape with
  | array _ more =>
    -- Without zeros, an array in which the same elements stand at the same places has ids as well.
    have hmore : Diff.Indexable (.array more) := by
      by_contra hnot
      rw [same_array_iff_forall₂ fun hboth => hnot hboth.2] at h
      refine hnot (indexable_of_forall₂ h indexable (.inl ?_))
      refine List.pairwise_of_forall_mem_list fun a ha b hb hbeside => ?_
      exact hbeside.1.elim (nonzero a ha) (nonzero b hb)
    rw [same_array_iff_matched indexable hmore] at h
    rw [same_array_iff_matched (indexable_of_perm indexable perm) hmore]
    intro k
    rw [← lookup_identified_of_perm indexable perm]
    exact h k

/-- **Equality does not see one array in another order.** -/
theorem Reorders.structurallyEqual_eq (h : Reorders v v') (w : Json) :
    v.structurallyEqual w = v'.structurallyEqual w := by
  induction h generalizing w with
  | here indexable nonzero perm =>
    rw [Bool.eq_iff_iff]
    refine ⟨same_array_of_perm indexable nonzero perm, ?_⟩
    exact same_array_of_perm (indexable_of_perm indexable perm)
      (fun u hu => nonzero u (perm.mem_iff.2 hu)) perm.symm
  | @element u u' before after inside ih =>
    have hid := inside.entityId?_eq
    have hkeyed : keyed (before ++ u :: after) = keyed (before ++ u' :: after) :=
      keyed_eq_of_perm (.of_eq (by simp [hid]))
    cases w with
    | array more =>
      simp only [structurallyEqual, hkeyed, eachById_middle hid ih, eachInOrder_middle ih,
        List.length_append, List.length_cons]
    | null | bool | number | string | object => simp only [structurallyEqual]
  | member before after k inside ih =>
    cases w with
    | object y =>
      simp only [structurallyEqual, eachByKey_middle ih, List.length_append, List.length_cons]
    | null | bool | number | string | array => simp only [structurallyEqual]

/-! ## Any number of steps -/

theorem Reordered.normal (h : Reordered v v') (normal : v.Normal) : v'.Normal := by
  induction h with
  | refl => exact normal
  | tail _ hstep ih => exact hstep.normal ih

/-- Only objects come from objects, and their members are put into another order. -/
theorem Reordered.object (h : Reordered (.object x) v') :
    ∃ y, v' = .object y ∧ Matched Reordered x y := by
  induction h with
  | refl => exact ⟨x, rfl, .refl fun _ _ _ => .refl⟩
  | tail _ hstep ih =>
    obtain ⟨y, rfl, hxy⟩ := ih
    cases hstep with
    | member before after k inside =>
      have hyz := matched_middle (fun _ => Relation.ReflTransGen.refl) (.single inside) before after k
      exact ⟨_, rfl, hxy.trans hyz fun _ _ _ _ _ _ _ => .trans⟩

/-- Only objects become objects. -/
theorem Reordered.noObject (h : Reordered v v') (hv : Diff.NoObject v) : Diff.NoObject v' := by
  induction h with
  | refl => exact hv
  | tail _ hstep ih =>
    obtain ⟨_, _, rfl, rfl⟩ | ⟨_, _, rfl, rfl⟩ := hstep.container
    · exact nofun
    · exact absurd rfl (ih _)

/-- **Equality does not see the order on either side.** -/
theorem Reordered.structurallyEqual_eq (hv : Reordered v v') (hw : Reordered w w') (normal : v.Normal)
    (normal' : w.Normal) : v'.structurallyEqual w' = v.structurallyEqual w := by
  have hleft : ∀ {a a' b : Json}, Reordered a a' → a'.structurallyEqual b = a.structurallyEqual b := by
    intro a a' b h
    induction h with
    | refl => rfl
    | tail _ hstep ih => rw [← hstep.structurallyEqual_eq, ih]
  rw [hleft hv, structurallyEqual_comm normal (hw.normal normal'), hleft hw,
    structurallyEqual_comm normal' normal]

end Json

namespace Diff

open Json (Reorders Reordered Matched)

variable {c : String} {v v' : Json} {items others : List Json} {seen seen' : Index} {why : Incomparable}
  {old old' new new' : Index} {position : Nat} {scope : Segment}

/-! ## The index of a collection -/

/-- Two indexes of a collection: the same complaint, or the same entities in another order. -/
inductive IndexedAlike : Except Incomparable Index → Except Incomparable Index → Prop
  | refused (why : Incomparable) : IndexedAlike (.error why) (.error why)
  | found {x y : Index} (matched : Matched Reordered x y) : IndexedAlike (.ok x) (.ok y)

theorem IndexedAlike.refl (i : Except Incomparable Index) : IndexedAlike i i := by
  cases i with
  | error why => exact .refused why
  | ok x => exact .found (.refl fun _ _ _ => .refl)

theorem IndexedAlike.trans {i j k : Except Incomparable Index} (h : IndexedAlike i j)
    (h' : IndexedAlike j k) : IndexedAlike i k := by
  cases h with
  | refused why => exact h'
  | found hxy =>
    cases h' with
    | found hyz => exact .found (hxy.trans hyz fun _ _ _ _ _ _ _ => .trans)

/-- What two indexes alike are used for comes to the same. -/
theorem IndexedAlike.bind_eq {α : Type} {i j : Except Incomparable Index}
    {f g : Index → Except Incomparable α} (h : IndexedAlike i j)
    (hfg : ∀ x y, i = .ok x → j = .ok y → Matched Reordered x y → f x = g y) : i >>= f = j >>= g := by
  cases h with
  | refused why => rfl
  | found matched => exact hfg _ _ rfl rfl matched

/-- What is wrong with an array is seen in the ids of its elements. -/
theorem indexFrom_eq_error (hids : items.map Json.entityId? = others.map Json.entityId?)
    (hseen : seen.map (·.1) = seen'.map (·.1)) (h : indexFrom c position seen items = .error why) :
    indexFrom c position seen' others = .error why := by
  induction items generalizing others position seen seen' with
  | nil => cases h
  | cons v items ih =>
    cases others with
    | nil => cases hids
    | cons v' others =>
      obtain ⟨hid, hids⟩ := List.cons.inj hids
      rw [indexFrom] at h ⊢
      rw [← hid]
      cases hv : v.entityId? with
      | none => simpa [hv] using h
      | some id =>
        have hmem : (Json.lookup id seen).isSome ↔ (Json.lookup id seen').isSome := by
          rw [Option.isSome_iff_exists, Option.isSome_iff_exists, ← Json.mem_keys_iff, hseen,
            Json.mem_keys_iff]
        simp only [hv, hmem] at h ⊢
        by_cases hagain : (Json.lookup id seen').isSome
        · rw [if_pos hagain] at h ⊢
          exact h
        · rw [if_neg hagain] at h ⊢
          have hseen' : ((id, v) :: seen).map (·.1) = ((id, v') :: seen').map (·.1) := by simp [hseen]
          exact ih hids hseen' h

theorem identified_middle {u : Json} {id : String} (h : u.HasId id) (before after : List Json) :
    identified (before ++ u :: after) = identified before ++ (id, u) :: identified after := by
  rw [← identified_cons h, identified, identified, identified, List.filterMap_append]

/-- **One array in another order leaves the index of a collection as it is.** -/
theorem indexedAlike_of_reorders (h : Reorders v v') : IndexedAlike (index c v) (index c v') := by
  cases h with
  | @here items others indexable nonzero perm =>
    rw [index_array_eq_ok_iff.2 ⟨indexable, rfl⟩,
      index_array_eq_ok_iff.2 ⟨Json.indexable_of_perm indexable perm, rfl⟩]
    refine .found fun k => ?_
    rw [← Json.lookup_identified_of_perm indexable perm]
    exact Matched.refl (fun _ _ _ => .refl) k
  | @element u u' before after inside =>
    have hid := inside.entityId?_eq
    have hids : (before ++ u :: after).map Json.entityId? =
        (before ++ u' :: after).map Json.entityId? := by simp [hid]
    cases hindex : index c (.array (before ++ u :: after)) with
    | error why =>
      rw [show index c (.array (before ++ u' :: after)) = .error why from
        indexFrom_eq_error hids rfl hindex]
      exact .refused why
    | ok entries =>
      obtain ⟨indexable, rfl⟩ := index_array_eq_ok_iff.1 hindex
      have indexable' : Indexable (.array (before ++ u' :: after)) := by
        rw [Json.indexable_array_iff] at indexable ⊢
        exact hids ▸ indexable
      rw [index_array_eq_ok_iff.2 ⟨indexable', rfl⟩]
      obtain ⟨id, hu⟩ := indexable.1 u (by simp)
      have hu' : u'.HasId id := by
        rw [← Json.entityId?_eq_some_iff] at hu ⊢
        exact hid ▸ hu
      rw [identified_middle hu, identified_middle hu']
      exact .found (Json.matched_middle (fun _ => .refl) (.single inside) _ _ _)
  | member before after k inside =>
    exact .found (Json.matched_middle (fun _ => .refl) (.single inside) before after k)

theorem indexedAlike_of_reordered (h : Reordered v v') : IndexedAlike (index c v) (index c v') := by
  induction h with
  | refl => exact .refl _
  | tail _ hstep ih => exact ih.trans (indexedAlike_of_reorders hstep)

/-! ## The comparison -/

/-- No id occurs twice in an index, and its entities are normal. -/
structure Proper (entries : Index) : Prop where
  distinct : (entries.map (·.1)).Nodup
  normal : ∀ i x, Json.lookup i entries = some x → x.Normal

theorem proper_index {entries : Index} (h : index c v = .ok entries) (normal : v.Normal) :
    Proper entries where
  distinct := nodup_index h normal
  normal _ _ hx := ((lookup_index h).1 hx).normal normal

/-- **Entities in another order are compared alike.** -/
theorem compareIndexes_congr (hold : Matched Reordered old old') (hnew : Matched Reordered new new')
    (proper : Proper old) (proper' : Proper new) (distinct : (new'.map (·.1)).Nodup) :
    compareIndexes c old' new' = compareIndexes c old new := by
  refine Changes.ext_inWay fun way e => ?_
  obtain ⟨d, i⟩ := e
  have holds := hold.exists_iff i
  have hnews := hnew.exists_iff i
  cases way with
  | added => simp only [Changes.inWay, compareIndexes, mem_select_lookup, holds, hnews]
  | removed => simp only [Changes.inWay, compareIndexes, mem_select_lookup, holds, hnews]
  | changed =>
    simp only [Changes.inWay, mem_changed_compareIndexes distinct,
      mem_changed_compareIndexes proper'.distinct]
    refine and_congr_right fun _ => ?_
    obtain ⟨hx, hx'⟩ | ⟨x, x', hx, hx', hxx⟩ := Json.cases_of_rel (hold i)
    · simp [hx, hx']
    obtain ⟨hy, hy'⟩ | ⟨y, y', hy, hy', hyy⟩ := Json.cases_of_rel (hnew i)
    · simp [hy, hy']
    have heq := Reordered.structurallyEqual_eq hxx hyy (proper.normal i x hx) (proper'.normal i y hy)
    simp [hx, hx', hy, hy', heq]

/-- The index of a collection of an old payload. One that is missing is empty. -/
def indexAt (members : Index) (c : String) : Except Incomparable Index :=
  match Json.lookup c members with
  | some value => index c value
  | none => .ok []

theorem indexAt_alike (h : Option.Rel Reordered (Json.lookup c old) (Json.lookup c old')) :
    IndexedAlike (indexAt old c) (indexAt old' c) := by
  rw [indexAt, indexAt]
  obtain ⟨hv, hv'⟩ | ⟨value, value', hv, hv', hvalue⟩ := Json.cases_of_rel h <;> rw [hv, hv']
  · exact .refl _
  · exact indexedAlike_of_reordered hvalue

theorem proper_indexAt {entries : Index} (h : indexAt old c = .ok entries)
    (normal : Json.NormalMembers old) : Proper entries := by
  rw [indexAt] at h
  split at h
  · next value hvalue => exact proper_index h (Json.Normal.of_mem normal (Json.mem_of_lookup hvalue))
  · cases h
    exact ⟨List.nodup_nil, by simp⟩

theorem diffCollection_of_lookup {value : Json} (h : Json.lookup c new = some value) :
    diffCollection scope old new c = (do
      let before ← indexAt old c
      let after ← index c value
      pure (compareIndexes c before after)) := by
  simp only [diffCollection, h, indexAt]
  cases Json.lookup c old <;> rfl

/-- **A collection in another order is compared alike**, also when it cannot be compared. -/
theorem diffCollection_eq_of_reordered
    (hold : Option.Rel Reordered (Json.lookup c old) (Json.lookup c old'))
    (hnew : Option.Rel Reordered (Json.lookup c new) (Json.lookup c new'))
    (normal : Json.NormalMembers old) (normal' : Json.NormalMembers new) :
    diffCollection scope old' new' c = diffCollection scope old new c := by
  obtain ⟨hv, hv'⟩ | ⟨value, value', hv, hv', hvalue⟩ := Json.cases_of_rel hnew
  · rw [diffCollection, diffCollection, hv, hv']
    rfl
  · have hnormal := Json.Normal.of_mem normal' (Json.mem_of_lookup hv)
    rw [diffCollection_of_lookup hv, diffCollection_of_lookup hv']
    symm
    refine (indexAt_alike hold).bind_eq fun before before' hx _ hbefore => ?_
    refine (indexedAlike_of_reordered hvalue).bind_eq fun after after' hy hy' hafter => ?_
    refine congrArg Except.ok (Eq.symm (compareIndexes_congr hbefore hafter ?_ ?_ ?_))
    · exact proper_indexAt hx normal
    · exact proper_index hy hnormal
    · exact nodup_index hy' (Reordered.normal hvalue hnormal)

theorem diffCollections_eq_of_reordered (hold : Matched Reordered old old')
    (hnew : Matched Reordered new new') (normal : Json.NormalMembers old)
    (normal' : Json.NormalMembers new) (cs : List String) :
    diffCollections scope old' new' cs = diffCollections scope old new cs := by
  induction cs with
  | nil => rfl
  | cons c cs ih =>
    rw [diffCollections, diffCollections, ih,
      diffCollection_eq_of_reordered (hold c) (hnew c) normal normal']

/-- **Payloads in another order are compared alike**, also when they cannot be compared. -/
theorem diff_eq_of_reordered {before before' : Option Json} (hold : Option.Rel Reordered before before')
    (hnew : Reordered v v') (normal : ∀ value ∈ before, value.Normal) (normal' : v.Normal) :
    diff before' v' scope = diff before v scope := by
  obtain ⟨new, rfl⟩ | hno := object_or_noObject v
  · obtain ⟨new', rfl, hnews⟩ := Reordered.object hnew
    cases hold with
    | none =>
      have hempty : Matched Reordered [] [] := fun _ => .none
      have hnormal : Json.NormalMembers [] := trivial
      exact diffCollections_eq_of_reordered hempty hnews hnormal normal'.2 _
    | @some value value' hvalue =>
      obtain ⟨old, rfl⟩ | hno := object_or_noObject value
      · obtain ⟨old', rfl, holds⟩ := Reordered.object hvalue
        exact diffCollections_eq_of_reordered holds hnews (normal _ rfl).2 normal'.2 _
      · rw [diff_of_noObject_old hno, diff_of_noObject_old (Reordered.noObject hvalue hno)]
  · rw [diff_of_noObject hno, diff_of_noObject (Reordered.noObject hnew hno)]

/-- **The order of elements with ids does not matter.** Any number of arrays, anywhere inside of values,
are put into another order. The elements of each have ids, no two the same, and none of the ids is a
floating-point zero, whose two signs are the same number but not the same text. Structural equality then
says the same as before, and so does the comparison of payloads, with all its complaints. Everywhere else
the order tells: unless both have elements with ids of their own, two arrays are equal if they are equally
long and equal from place to place. -/
theorem order_irrelevant :
    (∀ v v' w w' : Json, v.Normal → w.Normal → Reordered v v' → Reordered w w' →
      v'.structurallyEqual w' = v.structurallyEqual w) ∧
    (∀ (old old' : Option Json) (new new' : Json) (scope : Segment), (∀ value ∈ old, value.Normal) →
      new.Normal → Option.Rel Reordered old old' → Reordered new new' →
      diff old' new' scope = diff old new scope) ∧
    ∀ items others : List Json,
      (items = [] ∨ others = [] ∨ ¬ (Indexable (.array items) ∧ Indexable (.array others))) →
      ((Json.array items).structurallyEqual (.array others) = true ↔
        items.length = others.length ∧ ∀ (n : Nat) (h : n < items.length) (h' : n < others.length),
          items[n].structurallyEqual others[n] = true) := by
  refine ⟨fun _ _ _ _ normal normal' hv hw => Reordered.structurallyEqual_eq hv hw normal normal',
    fun _ _ _ _ _ normal normal' hold hnew => diff_eq_of_reordered hold hnew normal normal',
    fun items others h => ?_⟩
  have hplain : ¬ (Json.keyed items = true ∧ Json.keyed others = true) := by
    rw [Json.keyed_iff, Json.keyed_iff]
    rintro ⟨⟨hne, indexable⟩, hne', indexable'⟩
    obtain hnil | hnil | hnot := h
    · exact hne hnil
    · exact hne' hnil
    · exact hnot ⟨indexable, indexable'⟩
  exact (Json.same_array_iff_of_not_keyed hplain).trans List.forall₂_iff_get

/-- A unit that has changed is the only change, in whatever order the units and what they wear come. -/
theorem order_irrelevant_units :
    let item (id : String) : Json := .object [("id", .string id)]
    let unit (id : String) (worn : List Json) : Json := .object [("id", .string id), ("worn", .array worn)]
    let payload (units : List Json) : Json :=
      .object [("relicTierDefinition", .null), ("units", .array units)]
    let old := payload [unit "REY" [item "1", item "2"], unit "CAL" []]
    let old' := payload [unit "CAL" [], unit "REY" [item "2", item "1"]]
    let new := payload [unit "CAL" [item "3"], unit "REY" [item "1", item "2"]]
    Reordered old old' ∧ ∃ changes, diff (some old) new .units = .ok changes ∧
      diff (some old') new .units = .ok changes ∧ changes.changed.toList = [⟨"units", "CAL"⟩] := by
  intro item unit payload old old' new
  have hnormal : old.Normal := ⟨by decide, trivial, ⟨⟨by decide, trivial,
    ⟨⟨by decide, trivial, trivial⟩, ⟨by decide, trivial, trivial⟩, trivial⟩, trivial⟩,
    ⟨by decide, trivial, trivial, trivial⟩, trivial⟩, trivial⟩
  have hnormal' : new.Normal := ⟨by decide, trivial, ⟨⟨by decide, trivial,
    ⟨⟨by decide, trivial, trivial⟩, trivial⟩, trivial⟩, ⟨by decide, trivial,
    ⟨⟨by decide, trivial, trivial⟩, ⟨by decide, trivial, trivial⟩, trivial⟩, trivial⟩, trivial⟩, trivial⟩
  have hworn : Reorders (.array [item "1", item "2"]) (.array [item "2", item "1"]) := by
    refine .here (Json.indexable_array_iff.2 (by decide)) ?_ (.swap _ _ _)
    simp only [List.forall_mem_cons]
    exact ⟨Json.not_hasZeroId_of_text rfl, Json.not_hasZeroId_of_text rfl, nofun⟩
  have hunits (worn : List Json) : Reorders (.array [unit "REY" worn, unit "CAL" []])
      (.array [unit "CAL" [], unit "REY" worn]) := by
    refine .here (Json.indexable_array_iff.2 ?_) ?_ (.swap _ _ _)
    · constructor <;> simp [unit, Json.entityId?, Json.field?, Json.lookup]
    · simp only [List.forall_mem_cons]
      exact ⟨Json.not_hasZeroId_of_text rfl, Json.not_hasZeroId_of_text rfl, nofun⟩
  have hreordered : Reordered old old' :=
    .tail (.single (.member [_] [] "units" (.element [] [_] (.member [_] [] "worn" hworn))))
      (.member [_] [] "units" (hunits _))
  obtain ⟨-, hdiff, -⟩ := order_irrelevant
  have hold : ∃ changes, diff (some old) new .units = .ok changes := ⟨_, rfl⟩
  obtain ⟨changes, hchanges⟩ := hold
  have hsame := hdiff (some old) (some old') new new .units (by rintro _ ⟨⟩; exact hnormal) hnormal'
    (.some hreordered) .refl
  refine ⟨hreordered, changes, hchanges, hsame.trans hchanges, ?_⟩
  cases hchanges
  decide +kernel

end Diff

end ContentSync
