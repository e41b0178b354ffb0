import ContentSync.Proofs.Diff.Index

/-!
# What a comparison reports

Two payloads can be compared if both are objects whose collections have indexes. The comparison then
reports every entity that has come, has gone or is not the same, and none besides; what it does not own
has no influence on it.

* `Entry` — the entities of a payload;
* `Comparable` / `exists_diff_iff` — when payloads can be compared;
* `Exact` / `diff_ok` — the entities that a comparison reports;
* `Exact.append`, `Exact.eq` — reports of more collections, and that there is one report only;
* `AlikeOn` / `diff_congr` — payloads with the same collections compare alike;
* `diff_exact` — all of this together.
-/

set_option autoImplicit false

namespace ContentSync.Diff

open Json (lookup)

variable {c d i : String} {x y : Json} {scope : Segment} {changes : Changes}

/-! ## Two indexes -/

section

variable {old new entries : Index}

theorem exists_mem_iff_lookup : (∃ x, (i, x) ∈ entries) ↔ ∃ x, lookup i entries = some x := by
  constructor
  · rintro ⟨x, hmem⟩
    cases hfound : lookup i entries with
    | none => exact absurd hmem (Json.not_mem_of_lookup hfound)
    | some y => exact ⟨y, rfl⟩
  · rintro ⟨x, hfound⟩
    exact ⟨x, Json.mem_of_lookup hfound⟩

theorem mem_select {p : String → Json → Bool} :
    (⟨d, i⟩ : Entity) ∈ select c entries p ↔ d = c ∧ ∃ x, (i, x) ∈ entries ∧ p i x = true := by
  simp only [select, SortedSet.mem_ofList, List.mem_map, List.mem_filter, Entity.mk.injEq]
  constructor
  · rintro ⟨⟨_, x⟩, ⟨hmem, hp⟩, rfl, rfl⟩
    exact ⟨rfl, x, hmem, hp⟩
  · rintro ⟨rfl, x, hmem, hp⟩
    exact ⟨⟨i, x⟩, ⟨hmem, hp⟩, rfl, rfl⟩

theorem mem_select_lookup :
    (⟨d, i⟩ : Entity) ∈ select c new (fun id _ => (lookup id old).isNone) ↔
      d = c ∧ (∃ y, lookup i new = some y) ∧ ¬ ∃ x, lookup i old = some x := by
  rw [mem_select, ← exists_mem_iff_lookup, ← Option.isSome_iff_exists, exists_and_right]
  simp

theorem mem_changed_compareIndexes (distinct : (new.map (·.1)).Nodup) :
    (⟨d, i⟩ : Entity) ∈ (compareIndexes c old new).changed ↔
      d = c ∧ ∃ x y, lookup i old = some x ∧ lookup i new = some y ∧
        x.structurallyEqual y = false := by
  simp only [compareIndexes, mem_select, Json.lookup_eq_some_iff distinct]
  constructor
  · rintro ⟨rfl, y, hmem, hdiffer⟩
    cases hold : lookup i old with
    | none => simp [hold] at hdiffer
    | some x => exact ⟨rfl, x, y, rfl, hmem, by simpa [hold] using hdiffer⟩
  · rintro ⟨rfl, x, y, hold, hmem, hdiffer⟩
    exact ⟨rfl, y, hmem, by simp [hold, hdiffer]⟩

end

/-! ## The entities of payloads -/

/-- A payload, if there is one, holds an entity. -/
def Entry (payload : Option Json) (collection id : String) (entity : Json) : Prop :=
  ∃ value, payload.bind (Json.field? collection) = some value ∧ Holds collection value id entity

/-- Both payloads are objects, the new one has all the collections, and those that are there have
indexes. -/
structure Comparable (old : Option Json) (new : Json) (collections : List String) : Prop where
  new_object : ∃ members, new = .object members
  old_object : ∀ value, old = some value → ∃ members, value = .object members
  new_indexable : ∀ c ∈ collections, ∃ value, new.field? c = some value ∧ Indexable value
  old_indexable : ∀ c ∈ collections, ∀ value, old.bind (Json.field? c) = some value → Indexable value

/-- The changes between the collections of two payloads. -/
structure Exact (old : Option Json) (new : Json) (collections : List String) (changes : Changes) :
    Prop where
  added (c i : String) : ⟨c, i⟩ ∈ changes.added ↔
    c ∈ collections ∧ (∃ y, Entry (some new) c i y) ∧ ¬ ∃ x, Entry old c i x
  removed (c i : String) : ⟨c, i⟩ ∈ changes.removed ↔
    c ∈ collections ∧ (∃ x, Entry old c i x) ∧ ¬ ∃ y, Entry (some new) c i y
  changed (c i : String) : ⟨c, i⟩ ∈ changes.changed ↔
    c ∈ collections ∧ ∃ x y, Entry old c i x ∧ Entry (some new) c i y ∧ x.structurallyEqual y = false

namespace Exact

variable {old : Option Json} {new : Json} {cs ds : List String} {a b : Changes}

theorem nil (old : Option Json) (new : Json) : Exact old new [] .none where
  added _ _ := iff_of_false (SortedSet.not_mem_empty (α := Entity) _) (by simp)
  removed _ _ := iff_of_false (SortedSet.not_mem_empty (α := Entity) _) (by simp)
  changed _ _ := iff_of_false (SortedSet.not_mem_empty (α := Entity) _) (by simp)

/-- Reports of some collections and of others together are a report of all of them. -/
theorem append (ha : Exact old new cs a) (hb : Exact old new ds b) :
    Exact old new (cs ++ ds) (a.merge b) where
  added c i := by
    rw [Changes.merge, SortedSet.mem_union, ha.added, hb.added, List.mem_append, or_and_right]
  removed c i := by
    rw [Changes.merge, SortedSet.mem_union, ha.removed, hb.removed, List.mem_append, or_and_right]
  changed c i := by
    rw [Changes.merge, SortedSet.mem_union, ha.changed, hb.changed, List.mem_append, or_and_right]

/-- Nothing else can be reported. -/
theorem eq (ha : Exact old new cs a) (hb : Exact old new cs b) : a = b := by
  obtain ⟨added, removed, changed⟩ := a
  obtain ⟨added', removed', changed'⟩ := b
  congr 1
  · ext ⟨c, i⟩
    exact (ha.added c i).trans (hb.added c i).symm
  · ext ⟨c, i⟩
    exact (ha.removed c i).trans (hb.removed c i).symm
  · ext ⟨c, i⟩
    exact (ha.changed c i).trans (hb.changed c i).symm

/-- No entity is reported in two ways. -/
theorem disjoint (h : Exact old new cs a) (e : Entity) :
    ¬ (e ∈ a.added ∧ e ∈ a.removed) ∧ ¬ (e ∈ a.added ∧ e ∈ a.changed) ∧
      ¬ (e ∈ a.removed ∧ e ∈ a.changed) := by
  obtain ⟨c, i⟩ := e
  rw [h.added, h.removed, h.changed]
  refine ⟨?_, ?_, ?_⟩
  · rintro ⟨⟨-, -, hold⟩, -, hold', -⟩
    exact hold hold'
  · rintro ⟨⟨-, -, hold⟩, -, x, y, hx, -⟩
    exact hold ⟨x, hx⟩
  · rintro ⟨⟨-, -, hnew⟩, -, x, y, -, hy, -⟩
    exact hnew ⟨y, hy⟩

/-- Without an old payload everything is added. -/
theorem of_none (h : Exact none new cs a) :
    (∀ c i, ⟨c, i⟩ ∈ a.added ↔ c ∈ cs ∧ ∃ y, Entry (some new) c i y) ∧ a.removed = ∅ ∧
      a.changed = ∅ := by
  have hnone (c i : String) (x : Json) : ¬ Entry none c i x := by
    rintro ⟨_, hvalue, -⟩
    cases hvalue
  refine ⟨fun c i => ?_, ?_, ?_⟩
  · simp [h.added, hnone]
  · ext ⟨c, i⟩
    exact iff_of_false (by simp [h.removed, hnone]) (SortedSet.not_mem_empty _)
  · ext ⟨c, i⟩
    exact iff_of_false (by simp [h.changed, hnone]) (SortedSet.not_mem_empty _)

/-- The ids of the new payload are those of the old one without the removed ones, and the added ones. -/
theorem exists_entry_iff (h : Exact old new cs a) (hc : c ∈ cs) :
    (∃ y, Entry (some new) c i y) ↔
      ((∃ x, Entry old c i x) ∧ ⟨c, i⟩ ∉ a.removed) ∨ ⟨c, i⟩ ∈ a.added := by
  rw [h.added, h.removed]
  by_cases hold : ∃ x, Entry old c i x <;> simp [hc, hold]

end Exact

/-! ## One collection and several -/

section

variable {old new : Index} {cs : List String}

/-- The index of a collection among the members of an object. One that is missing is empty. -/
def IndexedAs (members : Index) (c : String) (entries : Index) : Prop :=
  match lookup c members with
  | some value => index c value = .ok entries
  | none => entries = []

theorem exists_indexedAs_iff {members : Index} :
    (∃ entries, IndexedAs members c entries) ↔
      ∀ value, lookup c members = some value → Indexable value := by
  unfold IndexedAs
  cases lookup c members with
  | none => simp
  | some value => simpa using exists_index_iff

theorem IndexedAs.lookup_eq_some_iff {members entries : Index} (h : IndexedAs members c entries) :
    lookup i entries = some x ↔ Entry (some (.object members)) c i x := by
  unfold IndexedAs at h
  change _ ↔ ∃ value, lookup c members = some value ∧ _
  split at h
  · next value hvalue => simpa [hvalue] using lookup_index h
  · next hvalue => simp [hvalue, h]

theorem diffCollection_eq_ok_iff :
    diffCollection scope old new c = .ok changes ↔
      ∃ value before after, lookup c new = some value ∧ IndexedAs old c before ∧
        index c value = .ok after ∧ compareIndexes c before after = changes := by
  unfold diffCollection IndexedAs
  cases lookup c new with
  | none => exact iff_of_false nofun nofun
  | some value =>
    cases lookup c old with
    | none => cases hnew : index c value <;> simp [hnew, bind, Except.bind, pure, Except.pure]
    | some previous =>
      cases hold : index c previous <;> cases hnew : index c value <;>
        simp [hold, hnew, bind, Except.bind, pure, Except.pure]

theorem diffCollections_cons_eq_ok_iff :
    diffCollections scope old new (c :: cs) = .ok changes ↔
      ∃ here others, diffCollection scope old new c = .ok here ∧
        diffCollections scope old new cs = .ok others ∧ here.merge others = changes := by
  rw [diffCollections]
  cases diffCollection scope old new c <;> cases diffCollections scope old new cs <;>
    simp [bind, Except.bind, pure, Except.pure]

/-- The collections of two objects can be compared if they have indexes. -/
theorem exists_diffCollections_iff :
    (∃ changes, diffCollections scope old new cs = .ok changes) ↔
      ∀ c ∈ cs, (∃ value, lookup c new = some value ∧ Indexable value) ∧
        ∀ value, lookup c old = some value → Indexable value := by
  induction cs with
  | nil => exact iff_of_true ⟨_, rfl⟩ (List.forall_mem_nil _)
  | cons c cs ih =>
    rw [List.forall_mem_cons, ← ih, ← exists_indexedAs_iff]
    simp only [diffCollections_cons_eq_ok_iff, diffCollection_eq_ok_iff]
    constructor
    · rintro ⟨_, _, others, ⟨value, before, after, hvalue, hbefore, hafter, rfl⟩, hothers, rfl⟩
      exact ⟨⟨⟨value, hvalue, exists_index_iff.1 ⟨after, hafter⟩⟩, before, hbefore⟩, others, hothers⟩
    · rintro ⟨⟨⟨value, hvalue, hindexable⟩, before, hbefore⟩, others, hothers⟩
      obtain ⟨after, hafter⟩ := exists_index_iff.2 hindexable
      exact ⟨_, _, others, ⟨value, before, after, hvalue, hbefore, hafter, rfl⟩, hothers, rfl⟩

/-- **What is reported of one collection.** -/
theorem exact_of_diffCollection (normal : Json.NormalMembers new)
    (h : diffCollection scope old new c = .ok changes) :
    Exact (some (.object old)) (.object new) [c] changes := by
  obtain ⟨value, before, after, hvalue, hbefore, hafter, rfl⟩ := diffCollection_eq_ok_iff.1 h
  have hafter' : IndexedAs new c after := by
    rw [IndexedAs, hvalue]
    exact hafter
  have distinct := nodup_index hafter (Json.Normal.of_mem normal (Json.mem_of_lookup hvalue))
  refine ⟨fun d i => ?_, fun d i => ?_, fun d i => ?_⟩
  · rw [compareIndexes, mem_select_lookup, List.mem_singleton]
    refine and_congr_right fun hd => ?_
    subst hd
    simp only [hbefore.lookup_eq_some_iff, hafter'.lookup_eq_some_iff]
  · rw [compareIndexes, mem_select_lookup, List.mem_singleton]
    refine and_congr_right fun hd => ?_
    subst hd
    simp only [hbefore.lookup_eq_some_iff, hafter'.lookup_eq_some_iff]
  · rw [mem_changed_compareIndexes distinct, List.mem_singleton]
    refine and_congr_right fun hd => ?_
    subst hd
    simp only [hbefore.lookup_eq_some_iff, hafter'.lookup_eq_some_iff]

/-- **What is reported of several collections.** -/
theorem exact_of_diffCollections (normal : Json.NormalMembers new)
    (h : diffCollections scope old new cs = .ok changes) :
    Exact (some (.object old)) (.object new) cs changes := by
  induction cs generalizing changes with
  | nil =>
    cases h
    exact .nil _ _
  | cons c cs ih =>
    obtain ⟨here, others, hhere, hothers, rfl⟩ := diffCollections_cons_eq_ok_iff.1 h
    exact (exact_of_diffCollection normal hhere).append (ih hothers)

end

/-! ## Payloads -/

section

variable {old old' : Option Json} {new new' value : Json} {cs : List String}

/-- A value that is no object. -/
def NoObject (value : Json) : Prop := ∀ members, value ≠ .object members

/-- The members of an old payload. Without one there are none. -/
inductive OldMembers : Option Json → Index → Prop
  | absent : OldMembers none []
  | object (members : Index) : OldMembers (some (.object members)) members

/-- How a comparison starts, whatever it is about. -/
inductive Start (old : Option Json) (new : Json) : Prop
  /-- It goes through the collections of two objects. -/
  | objects {before after : Index} (old_eq : OldMembers old before) (new_eq : new = .object after)
    (diff_eq : ∀ scope, diff old new scope = diffCollections scope before after scope.owned)
  /-- One of the payloads is no object. -/
  | refused {side : Side} (why : NoObject new ∨ ∃ value, old = some value ∧ NoObject value)
    (diff_eq : ∀ scope, diff old new scope = .error (.notObject side))

theorem diff_of_noObject (h : NoObject new) (old : Option Json) (scope : Segment) :
    diff old new scope = .error (.notObject .newPayload) := by
  cases new with
  | object members => exact absurd rfl (h members)
  | null | bool | number | string | array => rfl

theorem diff_of_noObject_old (h : NoObject value) (after : Index) (scope : Segment) :
    diff (some value) (.object after) scope = .error (.notObject .oldPayload) := by
  cases value with
  | object members => exact absurd rfl (h members)
  | null | bool | number | string | array => rfl

theorem object_or_noObject (value : Json) : (∃ members, value = .object members) ∨ NoObject value := by
  cases value with
  | object members => exact .inl ⟨members, rfl⟩
  | null | bool | number | string | array => exact .inr nofun

theorem start (old : Option Json) (new : Json) : Start old new := by
  obtain ⟨after, rfl⟩ | hnew := object_or_noObject new
  · cases old with
    | none => exact .objects .absent rfl fun _ => rfl
    | some value =>
      obtain ⟨before, rfl⟩ | hold := object_or_noObject value
      · exact .objects (.object before) rfl fun _ => rfl
      · exact .refused (.inr ⟨value, rfl, hold⟩) (diff_of_noObject_old hold after)
  · exact .refused (.inl hnew) (diff_of_noObject hnew old)

/-- Without an old payload, entities are compared with those of an empty object. -/
theorem OldMembers.lookup_eq {before : Index} (h : OldMembers old before) (c : String) :
    lookup c before = old.bind (Json.field? c) := by
  cases h <;> rfl

theorem OldMembers.entry_iff {before : Index} (h : OldMembers old before) :
    Entry (some (.object before)) c i x ↔ Entry old c i x := by
  rw [Entry, Entry, ← h.lookup_eq]
  rfl

/-- **The payloads that can be compared.** -/
theorem exists_diff_iff :
    (∃ changes, diff old new scope = .ok changes) ↔ Comparable old new scope.owned := by
  cases start old new with
  | objects old_eq new_eq diff_eq =>
    subst new_eq
    rw [diff_eq, exists_diffCollections_iff]
    constructor
    · intro h
      refine ⟨⟨_, rfl⟩, ?_, fun c hc => (h c hc).1, fun c hc value hvalue => ?_⟩
      · rintro value rfl
        cases old_eq
        exact ⟨_, rfl⟩
      · exact (h c hc).2 value ((old_eq.lookup_eq c).trans hvalue)
    · intro h c hc
      refine ⟨h.new_indexable c hc, fun value hvalue => ?_⟩
      exact h.old_indexable c hc value ((old_eq.lookup_eq c).symm.trans hvalue)
  | refused why diff_eq =>
    rw [diff_eq]
    refine iff_of_false nofun fun h => ?_
    obtain hnew | ⟨value, rfl, hold⟩ := why
    · obtain ⟨members, rfl⟩ := h.new_object
      exact hnew members rfl
    · obtain ⟨members, rfl⟩ := h.old_object value rfl
      exact hold members rfl

/-- **What is reported of payloads.** -/
theorem exact_of_diff (normal : new.Normal) (h : diff old new scope = .ok changes) :
    Exact old new scope.owned changes := by
  cases start old new with
  | objects old_eq new_eq diff_eq =>
    subst new_eq
    rw [diff_eq] at h
    have hexact := exact_of_diffCollections normal.2 h
    constructor
    · intro c i
      simp only [hexact.added, old_eq.entry_iff]
    · intro c i
      simp only [hexact.removed, old_eq.entry_iff]
    · intro c i
      simp only [hexact.changed, old_eq.entry_iff]
  | refused why diff_eq =>
    rw [diff_eq] at h
    cases h

/-- In a payload that can be compared, an id stands for one entity. -/
theorem Entry.unique {payload : Option Json}
    (indexable : ∀ value, payload.bind (Json.field? c) = some value → Indexable value)
    (hx : Entry payload c i x) (hy : Entry payload c i y) : x = y := by
  obtain ⟨value, hvalue, hx⟩ := hx
  obtain ⟨value', hvalue', hy⟩ := hy
  obtain rfl := Option.some.inj (hvalue.symm.trans hvalue')
  obtain ⟨entries, hindex⟩ := exists_index_iff.2 (indexable value hvalue)
  exact Option.some.inj
    (((lookup_index hindex).2 hx).symm.trans ((lookup_index hindex).2 hy))

theorem Comparable.unique (h : Comparable old new cs) (hc : c ∈ cs) (i : String) (x y : Json) :
    (Entry (some new) c i x → Entry (some new) c i y → x = y) ∧
      (Entry old c i x → Entry old c i y → x = y) := by
  refine ⟨Entry.unique fun value hvalue => ?_, Entry.unique (h.old_indexable c hc)⟩
  obtain ⟨value', hvalue', hindexable⟩ := h.new_indexable c hc
  obtain rfl := Option.some.inj (hvalue'.symm.trans hvalue)
  exact hindexable

/-! ## What is not owned -/

/-- Two payloads have the same collections, whatever else they have, or none of them is an object. -/
inductive AlikeOn (collections : List String) : Json → Json → Prop
  | objects {a b : Index} (same : ∀ c ∈ collections, lookup c a = lookup c b) :
    AlikeOn collections (.object a) (.object b)
  | noObjects {a b : Json} (left : NoObject a) (right : NoObject b) : AlikeOn collections a b

theorem diffCollections_congr {old new old' new' : Index}
    (hold : ∀ c ∈ cs, lookup c old = lookup c old') (hnew : ∀ c ∈ cs, lookup c new = lookup c new') :
    diffCollections scope old new cs = diffCollections scope old' new' cs := by
  induction cs with
  | nil => rfl
  | cons c cs ih =>
    obtain ⟨hold, holds⟩ := List.forall_mem_cons.1 hold
    obtain ⟨hnew, hnews⟩ := List.forall_mem_cons.1 hnew
    rw [diffCollections, diffCollections, ih holds hnews, diffCollection, diffCollection, hold, hnew]

/-- **Payloads with the same collections compare alike**, also when they cannot be compared. -/
theorem diff_congr (hold : Option.Rel (AlikeOn scope.owned) old old')
    (hnew : AlikeOn scope.owned new new') : diff old new scope = diff old' new' scope := by
  cases hnew with
  | objects same =>
    cases hold with
    | none => exact diffCollections_congr (fun _ _ => rfl) same
    | some hold =>
      cases hold with
      | objects same' => exact diffCollections_congr same' same
      | noObjects left right => rw [diff_of_noObject_old left, diff_of_noObject_old right]
  | noObjects left right => rw [diff_of_noObject left, diff_of_noObject right]

end

/-- **Comparisons are exact.** They succeed if the payloads can be compared and are a failure
otherwise. What is reported is what has come, what has gone, and what stands under one id but is not
structurally equal; so nothing is reported twice, and the ids of the new payload follow from those of
the old one. All of this depends on nothing but the collections of the segment. A payload is normal:
no object in it has a key twice. -/
theorem diff_exact (old : Option Json) (new : Json) (scope : Segment) (normal : new.Normal) :
    ((∃ changes, diff old new scope = .ok changes) ↔ Comparable old new scope.owned) ∧
    (¬ Comparable old new scope.owned → ∃ why, diff old new scope = .error why ∧
      why.failure = .comparison why.message) ∧
    (∀ changes, diff old new scope = .ok changes →
      Exact old new scope.owned changes ∧
      (∀ c ∈ scope.owned, ∀ i x y, (Entry (some new) c i x → Entry (some new) c i y → x = y) ∧
        (Entry old c i x → Entry old c i y → x = y)) ∧
      (∀ e, ¬ (e ∈ changes.added ∧ e ∈ changes.removed) ∧
        ¬ (e ∈ changes.added ∧ e ∈ changes.changed) ∧
        ¬ (e ∈ changes.removed ∧ e ∈ changes.changed)) ∧
      (∀ c ∈ scope.owned, ∀ i, (∃ y, Entry (some new) c i y) ↔
        ((∃ x, Entry old c i x) ∧ ⟨c, i⟩ ∉ changes.removed) ∨ ⟨c, i⟩ ∈ changes.added) ∧
      (old = none →
        (∀ c i, ⟨c, i⟩ ∈ changes.added ↔ c ∈ scope.owned ∧ ∃ y, Entry (some new) c i y) ∧
          changes.removed = ∅ ∧ changes.changed = ∅)) ∧
    ∀ old' new', Option.Rel (AlikeOn scope.owned) old old' → AlikeOn scope.owned new new' →
      diff old' new' scope = diff old new scope := by
  refine ⟨exists_diff_iff, fun h => ?_, fun changes h => ?_,
    fun old' new' hold hnew => (diff_congr hold hnew).symm⟩
  · cases hdiff : diff old new scope with
    | error why => exact ⟨why, rfl, rfl⟩
    | ok changes => exact absurd (exists_diff_iff.1 ⟨changes, hdiff⟩) h
  · have hexact := exact_of_diff normal h
    refine ⟨hexact, fun c hc => (exists_diff_iff.1 ⟨changes, h⟩).unique hc, hexact.disjoint,
      fun c hc i => hexact.exists_entry_iff hc, ?_⟩
    rintro rfl
    exact hexact.of_none

/-- A unit that is not the same, a unit that has come, whose id is a number, and a single value. -/
theorem diff_exact_units :
    let old : Json := .object [("units", .array [.object [("id", .string "REY")]])]
    let new : Json := .object [("relicTierDefinition", .bool true), ("units", .array
      [.object [("id", .string "REY"), ("power", .natural 7)], .object [("id", .natural 5)]])]
    ∃ changes, diff (some old) new .units = .ok changes ∧
      Exact (some old) new Segment.units.owned changes ∧
      changes.added.toList = [⟨"relicTierDefinition", "relicTierDefinition"⟩, ⟨"units", "5"⟩] ∧
      changes.removed.toList = [] ∧ changes.changed.toList = [⟨"units", "REY"⟩] := by
  intro old new
  have normal : new.Normal :=
    ⟨by decide, trivial, ⟨⟨by decide, trivial, trivial, trivial⟩, ⟨by decide, trivial, trivial⟩,
      trivial⟩, trivial⟩
  obtain ⟨-, -, hok, -⟩ := diff_exact (some old) new .units normal
  have hdiff : ∃ changes, diff (some old) new .units = .ok changes := ⟨_, rfl⟩
  obtain ⟨changes, hchanges⟩ := hdiff
  refine ⟨changes, hchanges, (hok changes hchanges).1, ?_⟩
  cases hchanges
  decide +kernel

end ContentSync.Diff
