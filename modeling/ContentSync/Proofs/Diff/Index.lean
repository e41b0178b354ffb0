import ContentSync.Diff.Compare

/-!
# Collections and their entities

A collection has an index if it is `null`, an object or a single value, or if it is an array in which
every element has an id of its own. The index says which entity stands under an id.

* `Json.HasId` / `Json.entityId?_eq_some_iff` — the id of an element;
* `Indexable` / `exists_index_iff` — the collections that have an index;
* `Holds` / `lookup_index` — the entities of a collection, and how the index finds them;
* `nodup_index` — no id occurs twice in an index.
-/

set_option autoImplicit false

namespace ContentSync

namespace Json

variable {k id : String} {v item : Json} {members : List (String × Json)}

theorem mem_of_lookup (h : lookup k members = some v) : (k, v) ∈ members := by
  induction members with
  | nil => cases h
  | cons m rest ih =>
    obtain ⟨l, w⟩ := m
    rw [lookup_cons] at h
    split at h
    · next hl =>
      cases h
      exact hl ▸ List.mem_cons_self
    · exact List.mem_cons_of_mem _ (ih h)

/-- A key that is looked up in vain is no key at all. -/
theorem not_mem_of_lookup (h : lookup k members = none) : (k, v) ∉ members := by
  induction members with
  | nil => exact List.not_mem_nil
  | cons m rest ih =>
    obtain ⟨l, w⟩ := m
    rw [lookup_cons] at h
    split at h
    · cases h
    · next hl =>
      intro hmem
      obtain hmem | hmem := List.mem_cons.1 hmem
      · exact hl (congrArg Prod.fst hmem).symm
      · exact ih h hmem

/-- Where no key occurs twice, every member is found under its key. -/
theorem lookup_eq_some_iff (distinct : (members.map (·.1)).Nodup) :
    lookup k members = some v ↔ (k, v) ∈ members := by
  refine ⟨mem_of_lookup, fun hmem => ?_⟩
  induction members with
  | nil => cases hmem
  | cons m rest ih =>
    obtain ⟨l, w⟩ := m
    obtain ⟨hl, distinct⟩ := List.nodup_cons.1 distinct
    rw [lookup_cons]
    obtain hmem | hmem := List.mem_cons.1 hmem
    · cases hmem
      exact if_pos rfl
    · have hne : l ≠ k := by
        rintro rfl
        exact hl (List.mem_map.2 ⟨_, hmem, rfl⟩)
      rw [if_neg hne]
      exact ih distinct hmem

theorem Normal.of_mem (h : NormalMembers members) (hmem : (k, v) ∈ members) : v.Normal := by
  induction members with
  | nil => cases hmem
  | cons m rest ih =>
    obtain ⟨l, w⟩ := m
    obtain ⟨hw, hrest⟩ := h
    obtain hmem | hmem := List.mem_cons.1 hmem
    · cases hmem
      exact hw
    · exact ih hrest hmem

/-- An object has an id if its field is a text or a number, which stands for its text. -/
inductive HasId : Json → String → Prop
  | text {members : List (String × Json)} {id : String}
    (id_eq : lookup "id" members = some (.string id)) : HasId (.object members) id
  | number {members : List (String × Json)} {n : Number}
    (id_eq : lookup "id" members = some (.number n)) : HasId (.object members) n.text

theorem entityId?_eq_some_iff : item.entityId? = some id ↔ item.HasId id := by
  constructor
  · intro h
    unfold entityId? at h
    split at h
    · next s hfield =>
      cases h
      cases item with
      | object => exact .text hfield
      | null | bool | number | string | array => cases hfield
    · next n hfield =>
      cases h
      cases item with
      | object => exact .number hfield
      | null | bool | number | string | array => cases hfield
    · cases h
  · rintro (⟨hfield⟩ | ⟨hfield⟩) <;> simp [entityId?, field?, hfield]

theorem HasId.unique {id' : String} (h : item.HasId id) (h' : item.HasId id') : id = id' :=
  Option.some.inj ((entityId?_eq_some_iff.2 h).symm.trans (entityId?_eq_some_iff.2 h'))

end Json

namespace Diff

open Json (HasId)

variable {collection : String} {position : Nat} {seen entries : Index} {items : List Json}
  {value x y : Json} {i : String}

/-- The elements of an array have ids, of which no two are equal. Every other collection has an index. -/
def Indexable : Json → Prop
  | .array items => (∀ item ∈ items, ∃ id, item.HasId id) ∧
      items.Pairwise fun a b => ∀ id, a.HasId id → ¬ b.HasId id
  | _ => True

/-- A collection holds an entity under an id. -/
def Holds (collection : String) : Json → String → Json → Prop
  | .null, _, _ => False
  | .array items, id, entity => entity ∈ items ∧ entity.HasId id
  | .object members, id, entity => Json.lookup id members = some entity
  | scalar, id, entity => id = collection ∧ entity = scalar

/-- The elements of an array under their ids. -/
def identified (items : List Json) : Index :=
  items.filterMap fun item => item.entityId?.map fun id => (id, item)

theorem mem_identified : (i, x) ∈ identified items ↔ x ∈ items ∧ x.HasId i := by
  simp only [identified, List.mem_filterMap, Option.map_eq_some_iff, Json.entityId?_eq_some_iff,
    Prod.mk.injEq]
  constructor
  · rintro ⟨item, hmem, id, hid, rfl, rfl⟩
    exact ⟨hmem, hid⟩
  · rintro ⟨hmem, hid⟩
    exact ⟨x, hmem, i, hid, rfl, rfl⟩

theorem identified_cons {item : Json} {id : String} (h : item.HasId id) (rest : List Json) :
    identified (item :: rest) = (id, item) :: identified rest := by
  simp [identified, Json.entityId?_eq_some_iff.2 h]

/-- Elements are indexed if each of them has an id that none of those before it has. -/
theorem indexFrom_eq_ok_iff :
    indexFrom collection position seen items = .ok entries ↔
      (∀ item ∈ items, ∃ id, item.HasId id ∧ Json.lookup id seen = none) ∧
        (items.Pairwise fun a b => ∀ id, a.HasId id → ¬ b.HasId id) ∧
          seen.reverse ++ identified items = entries := by
  induction items generalizing position seen with
  | nil => simp [indexFrom, identified]
  | cons item rest ih =>
    cases hid : item.entityId? with
    | none =>
      refine iff_of_false (by simp [indexFrom, hid]) ?_
      rintro ⟨hall, -⟩
      obtain ⟨id, hhas, -⟩ := hall item List.mem_cons_self
      simp [Json.entityId?_eq_some_iff.2 hhas] at hid
    | some id =>
      have hhas := Json.entityId?_eq_some_iff.1 hid
      cases hseen : Json.lookup id seen with
      | some =>
        refine iff_of_false (by simp [indexFrom, hid, hseen]) ?_
        rintro ⟨hall, -⟩
        obtain ⟨id', hhas', hnone⟩ := hall item List.mem_cons_self
        rw [← hhas.unique hhas', hseen] at hnone
        cases hnone
      | none =>
        have hstep : indexFrom collection position seen (item :: rest) =
            indexFrom collection (position + 1) ((id, item) :: seen) rest := by
          simp [indexFrom, hid, hseen]
        rw [hstep, ih, identified_cons hhas, List.pairwise_cons, List.forall_mem_cons]
        simp only [List.reverse_cons, List.append_assoc, List.singleton_append]
        constructor
        · rintro ⟨hall, hpairs, rfl⟩
          refine ⟨⟨⟨id, hhas, hseen⟩, fun x hx => ?_⟩, ⟨fun x hx id' hitem hx' => ?_, hpairs⟩, rfl⟩
          · obtain ⟨id', hx', hnone⟩ := hall x hx
            rw [Json.lookup_cons] at hnone
            split at hnone
            · cases hnone
            · exact ⟨id', hx', hnone⟩
          · obtain ⟨_, hx'', hnone⟩ := hall x hx
            rw [← hx'.unique hx'', ← hhas.unique hitem, Json.lookup_cons, if_pos rfl] at hnone
            cases hnone
        · rintro ⟨⟨-, hall⟩, ⟨hne, hpairs⟩, rfl⟩
          refine ⟨fun x hx => ?_, hpairs, rfl⟩
          obtain ⟨id', hx', hnone⟩ := hall x hx
          refine ⟨id', hx', ?_⟩
          rw [Json.lookup_cons, if_neg, hnone]
          rintro rfl
          exact hne x hx id hhas hx'

/-- No two elements of an array that has an index are found under one id. -/
theorem nodup_identified (distinct : items.Pairwise fun a b => ∀ id, a.HasId id → ¬ b.HasId id) :
    ((identified items).map (·.1)).Nodup := by
  induction items with
  | nil => exact List.nodup_nil
  | cons item rest ih =>
    obtain ⟨hne, distinct⟩ := List.pairwise_cons.1 distinct
    cases hid : item.entityId? with
    | none =>
      rw [show identified (item :: rest) = identified rest by simp [identified, hid]]
      exact ih distinct
    | some id =>
      have hhas := Json.entityId?_eq_some_iff.1 hid
      rw [identified_cons hhas, List.map_cons, List.nodup_cons]
      refine ⟨fun hmem => ?_, ih distinct⟩
      obtain ⟨⟨_, x⟩, hx, rfl⟩ := List.mem_map.1 hmem
      obtain ⟨hx, hx'⟩ := mem_identified.1 hx
      exact hne x hx _ hhas hx'

/-- The index of an array. -/
theorem index_array_eq_ok_iff :
    index collection (.array items) = .ok entries ↔
      Indexable (.array items) ∧ identified items = entries := by
  simp only [index, indexFrom_eq_ok_iff, Json.lookup_nil, and_true, List.reverse_nil,
    List.nil_append, Indexable, and_assoc]

/-- **The collections that have an index.** -/
theorem exists_index_iff : (∃ entries, index collection value = .ok entries) ↔ Indexable value := by
  cases value with
  | null | bool | number | string | object => exact iff_of_true ⟨_, rfl⟩ trivial
  | array items => simp [index_array_eq_ok_iff]

/-- **The index of a collection finds its entities.** -/
theorem lookup_index (h : index collection value = .ok entries) :
    Json.lookup i entries = some x ↔ Holds collection value i x := by
  cases value with
  | null =>
    cases h
    exact iff_of_false nofun id
  | bool | number | string =>
    cases h
    simp [Json.lookup_cons, Holds, eq_comm]
  | array items =>
    obtain ⟨⟨-, distinct⟩, rfl⟩ := index_array_eq_ok_iff.1 h
    exact (Json.lookup_eq_some_iff (nodup_identified distinct)).trans mem_identified
  | object members =>
    cases h
    exact Iff.rfl

/-- **No id occurs twice in an index.** -/
theorem nodup_index (h : index collection value = .ok entries) (normal : value.Normal) :
    (entries.map (·.1)).Nodup := by
  cases value with
  | null =>
    cases h
    exact List.nodup_nil
  | bool | number | string =>
    cases h
    exact List.nodup_cons.2 ⟨List.not_mem_nil, List.nodup_nil⟩
  | array items =>
    obtain ⟨⟨-, distinct⟩, rfl⟩ := index_array_eq_ok_iff.1 h
    exact nodup_identified distinct
  | object members =>
    cases h
    refine List.pairwise_map.2 (normal.1.imp fun {a b} hlt heq => ?_)
    exact String.lt_irrefl _ (heq ▸ hlt)

end Diff

end ContentSync
