import ContentSync.Diff.Changes
import Mathlib.Data.List.Sort
import Mathlib.Data.String.Basic

/-!
# Ids by collection

The ids of what was added or changed are told by collection. They can be gathered one entity after the
other, each at the end of the list of its collection, and sorted afterwards, with repeated ids dropped;
what comes of it are the entities in increasing order, with neighbours of one collection put together.

* `Changes.listed` — the entities that groups of ids stand for;
* `Changes.Keyed`, `Changes.Ordered` — collections in order and no group empty, and the ids in order too;
* `Changes.Keyed.eq_byCollection` — such groups are determined by their entities;
* `Changes.gathered` — the groups as they come about one entity after the other;
* `Changes.touched_eq_gathered` — they are the same.
-/

set_option autoImplicit false

namespace ContentSync.Changes

variable {groups : List (String × List String)} {l : List Entity} {e : Entity} {c : Changes}

/-! ## The order of entities -/

theorem compare_lt_iff {a b : Entity} :
    compare a b = .lt ↔ a.collection < b.collection ∨ a.collection = b.collection ∧ a.id < b.id := by
  show (compareLex (compareOn Entity.collection) (compareOn Entity.id)) a b = .lt ↔ _
  rw [compareLex, Ordering.then_eq_lt]
  exact or_congr compare_lt_iff_lt (and_congr compare_eq_iff_eq compare_lt_iff_lt)

theorem collection_le {a b : Entity} (h : compare a b = .lt) : a.collection ≤ b.collection := by
  obtain h | ⟨h, -⟩ := compare_lt_iff.1 h
  · exact le_of_lt h
  · exact le_of_eq h

/-! ## Groups and entities -/

/-- The entities whose ids are in groups. -/
def listed (groups : List (String × List String)) : List Entity :=
  groups.flatMap fun g => g.2.map (Entity.mk g.1)

@[simp] theorem listed_nil : listed [] = [] := rfl

@[simp] theorem listed_cons (g : String × List String) (groups : List (String × List String)) :
    listed (g :: groups) = g.2.map (Entity.mk g.1) ++ listed groups := rfl

theorem mem_listed : e ∈ listed groups ↔ ∃ g ∈ groups, g.1 = e.collection ∧ e.id ∈ g.2 := by
  simp only [listed, List.mem_flatMap, List.mem_map]
  constructor
  · rintro ⟨g, hg, id, hid, rfl⟩
    exact ⟨g, hg, rfl, hid⟩
  · rintro ⟨g, hg, hkey, hid⟩
    exact ⟨g, hg, e.id, hid, by rw [hkey]⟩

/-- Groups in the order of their collections, each with ids. -/
structure Keyed (groups : List (String × List String)) : Prop where
  collections : groups.Pairwise fun a b => a.1 < b.1
  filled : ∀ g ∈ groups, g.2 ≠ []

/-- Groups in the order of their collections, each with ids, which are in order too. -/
structure Ordered (groups : List (String × List String)) : Prop extends Keyed groups where
  ids : ∀ g ∈ groups, g.2.Pairwise (· < ·)

/-- Putting neighbours together loses and adds nothing. -/
@[simp] theorem listed_byCollection (l : List Entity) : listed (byCollection l) = l := by
  induction l with
  | nil => rfl
  | cons e rest ih =>
    rw [byCollection]
    split
    · next heq =>
      rw [heq] at ih
      rw [← ih]
      rfl
    · next collection ids more heq =>
      rw [heq] at ih
      split
      · next hsame =>
        subst hsame
        rw [← ih]
        rfl
      · rw [← ih]
        rfl

theorem filled_byCollection {g : String × List String} (hg : g ∈ byCollection l) : g.2 ≠ [] := by
  induction l with
  | nil => cases hg
  | cons e rest ih =>
    rw [byCollection] at hg
    split at hg
    · obtain rfl := List.mem_singleton.1 hg
      exact List.cons_ne_nil _ _
    · next heq =>
      rw [heq] at ih
      split at hg
      · obtain rfl | hg := List.mem_cons.1 hg
        · exact List.cons_ne_nil _ _
        · exact ih (List.mem_cons_of_mem _ hg)
      · obtain rfl | hg := List.mem_cons.1 hg
        · exact List.cons_ne_nil _ _
        · exact ih hg

/-- Groups are of collections of entities. -/
theorem mem_byCollection {g : String × List String} (h : g ∈ byCollection l) :
    ∃ e ∈ l, e.collection = g.1 := by
  obtain ⟨id, hid⟩ := List.exists_mem_of_ne_nil _ (filled_byCollection h)
  refine ⟨⟨g.1, id⟩, ?_, rfl⟩
  rw [← listed_byCollection l]
  exact mem_listed.2 ⟨g, h, rfl, hid⟩

/-- Sorted entities make groups in the order of their collections. -/
theorem byCollection_inOrder (h : l.Pairwise fun a b => compare a b = .lt) :
    (byCollection l).Pairwise fun a b => a.1 < b.1 := by
  induction l with
  | nil => exact List.Pairwise.nil
  | cons e rest ih =>
    obtain ⟨hfirst, hrest⟩ := List.pairwise_cons.1 h
    have hle : ∀ g ∈ byCollection rest, e.collection ≤ g.1 := by
      intro g hg
      obtain ⟨x, hx, hkey⟩ := mem_byCollection hg
      exact hkey ▸ collection_le (hfirst x hx)
    have horder := ih hrest
    rw [byCollection]
    split
    · exact List.pairwise_singleton _ _
    · rename_i collection ids more heq
      rw [heq] at hle horder
      obtain ⟨hhead, htail⟩ := List.pairwise_cons.1 horder
      split
      · exact List.pairwise_cons.2 ⟨hhead, htail⟩
      · rename_i hother
        have hlt : e.collection < collection :=
          lt_of_le_of_ne (hle _ List.mem_cons_self) (Ne.symm hother)
        refine List.pairwise_cons.2 ⟨fun g hg => ?_, horder⟩
        rcases List.mem_cons.1 hg with rfl | hg
        · exact hlt
        · exact lt_trans hlt (hhead g hg)

theorem ordered_byCollection (h : l.Pairwise fun a b => compare a b = .lt) :
    Ordered (byCollection l) := by
  refine ⟨⟨byCollection_inOrder h, fun g hg => filled_byCollection hg⟩, fun g hg => ?_⟩
  rw [← listed_byCollection l, listed, List.pairwise_flatMap] at h
  refine (List.pairwise_map.1 (h.1 g hg)).imp fun hlt => ?_
  obtain hlt | ⟨-, hlt⟩ := compare_lt_iff.1 hlt
  · exact absurd hlt (lt_irrefl _)
  · exact hlt

/-- Groups in order list their entities in order, each of them once. -/
theorem Ordered.increasing (h : Ordered groups) :
    (listed groups).Pairwise fun a b => compare a b = .lt := by
  rw [listed, List.pairwise_flatMap]
  constructor
  · intro g hg
    refine List.pairwise_map.2 ((h.ids g hg).imp fun hlt => ?_)
    exact compare_lt_iff.2 (.inr ⟨rfl, hlt⟩)
  · refine h.collections.imp fun hlt x hx y hy => ?_
    obtain ⟨-, -, rfl⟩ := List.mem_map.1 hx
    obtain ⟨-, -, rfl⟩ := List.mem_map.1 hy
    exact compare_lt_iff.2 (.inl hlt)

/-- The ids of one collection before those of others are put together. -/
theorem byCollection_append {collection : String} {ids : List String} (hids : ids ≠ [])
    (hnext : ∀ g ∈ (byCollection l).head?, g.1 ≠ collection) :
    byCollection (ids.map (Entity.mk collection) ++ l) = (collection, ids) :: byCollection l := by
  induction ids with
  | nil => exact absurd rfl hids
  | cons id ids ih =>
    rw [List.map_cons, List.cons_append, byCollection]
    by_cases hmore : ids = []
    · subst hmore
      rw [List.map_nil, List.nil_append]
      cases hl : byCollection l with
      | nil => rfl
      | cons g more => exact if_neg (hnext g (by rw [hl]; rfl))
    · rw [ih hmore]
      exact if_pos rfl

/-- **Groups in order are determined by their entities.** -/
theorem Keyed.eq_byCollection (h : Keyed groups) : groups = byCollection (listed groups) := by
  obtain ⟨hcollections, hfilled⟩ := h
  induction groups with
  | nil => rfl
  | cons g groups ih =>
    obtain ⟨hfirst, hrest⟩ := List.pairwise_cons.1 hcollections
    have hgroups := ih hrest fun x hx => hfilled x (List.mem_cons_of_mem _ hx)
    rw [listed_cons, byCollection_append (hfilled g List.mem_cons_self), ← hgroups]
    intro x hx
    rw [← hgroups] at hx
    exact (hfirst x (List.mem_of_mem_head? hx)).ne'

/-! ## One entity after the other -/

/-- Adds an id at the end of the list of its collection. A collection that has none yet comes to its
place in the order. -/
def addId (groups : List (String × List String)) (e : Entity) : List (String × List String) :=
  match groups with
  | [] => [(e.collection, [e.id])]
  | (collection, ids) :: more =>
    if e.collection < collection then (e.collection, [e.id]) :: (collection, ids) :: more
    else if e.collection = collection then (collection, ids ++ [e.id]) :: more
    else (collection, ids) :: addId more e

/-- Drops whatever is the same as its neighbour. -/
def dropRepeats : List String → List String
  | a :: b :: rest => if a = b then dropRepeats (b :: rest) else a :: dropRepeats (b :: rest)
  | ids => ids

/-- The ids in increasing order, each of them once. -/
def sortIds (ids : List String) : List String := dropRepeats (ids.mergeSort (· ≤ ·))

/-- The ids of what was added and then of what was changed, gathered by collection and sorted. -/
def gathered (c : Changes) : List (String × List String) :=
  ((c.added.toList ++ c.changed.toList).foldl addId []).map fun g => (g.1, sortIds g.2)

/-! ### Sorting -/

variable {ids : List String} {id : String}

theorem mem_dropRepeats : id ∈ dropRepeats ids ↔ id ∈ ids := by
  fun_induction dropRepeats ids with
  | case1 b rest ih => simp [ih]
  | case2 a b rest _ ih => simp [ih]
  | case3 ids _ => rfl

theorem dropRepeats_increasing (h : ids.Pairwise (· ≤ ·)) : (dropRepeats ids).Pairwise (· < ·) := by
  fun_induction dropRepeats ids with
  | case1 b rest ih => exact ih (List.pairwise_cons.1 h).2
  | case2 a b rest hne ih =>
    obtain ⟨hfirst, hrest⟩ := List.pairwise_cons.1 h
    refine List.pairwise_cons.2 ⟨fun x hx => ?_, ih hrest⟩
    have hab : a < b := lt_of_le_of_ne (hfirst b List.mem_cons_self) hne
    obtain rfl | hx := List.mem_cons.1 (mem_dropRepeats.1 hx)
    · exact hab
    · exact lt_of_lt_of_le hab ((List.pairwise_cons.1 hrest).1 x hx)
  | case3 ids hshort =>
    match ids, hshort with
    | [], _ => exact List.Pairwise.nil
    | [a], _ => exact List.pairwise_singleton _ _
    | a :: b :: rest, hshort => exact absurd rfl (hshort a b rest)

theorem mem_sortIds : id ∈ sortIds ids ↔ id ∈ ids := by
  rw [sortIds, mem_dropRepeats, List.mem_mergeSort]

theorem sortIds_increasing (ids : List String) : (sortIds ids).Pairwise (· < ·) := by
  refine dropRepeats_increasing ?_
  simpa using List.pairwise_mergeSort' (· ≤ ·) ids

/-! ### Gathering -/

theorem mem_addId {g : String × List String} (hg : g ∈ addId groups e) :
    g.1 = e.collection ∨ g ∈ groups := by
  fun_induction addId groups e with
  | case1 => exact .inl (List.mem_singleton.1 hg ▸ rfl)
  | case2 collection ids more hlt =>
    obtain rfl | hg := List.mem_cons.1 hg
    · exact .inl rfl
    · exact .inr hg
  | case3 ids more =>
    obtain rfl | hg := List.mem_cons.1 hg
    · exact .inl rfl
    · exact .inr (List.mem_cons_of_mem _ hg)
  | case4 collection ids more hnlt hne ih =>
    obtain rfl | hg := List.mem_cons.1 hg
    · exact .inr List.mem_cons_self
    · exact (ih hg).imp_right (List.mem_cons_of_mem _)

theorem mem_listed_addId {x : Entity} : x ∈ listed (addId groups e) ↔ x ∈ listed groups ∨ x = e := by
  fun_induction addId groups e with
  | case1 => simp
  | case2 => simp [or_comm]
  | case3 ids more =>
    simp only [listed_cons, List.map_append, List.mem_append, List.map_singleton, List.mem_singleton]
    exact or_right_comm
  | case4 collection ids more _ _ ih => simp only [listed_cons, List.mem_append, ih, or_assoc]

/-- One entity more keeps the order of the collections. -/
theorem keyed_addId (h : Keyed groups) (e : Entity) : Keyed (addId groups e) := by
  fun_induction addId groups e with
  | case1 => exact ⟨List.pairwise_singleton _ _, by simp⟩
  | case2 collection ids more hlt =>
    obtain ⟨hfirst, -⟩ := List.pairwise_cons.1 h.collections
    refine ⟨List.pairwise_cons.2 ⟨fun g hg => ?_, h.collections⟩,
      List.forall_mem_cons.2 ⟨List.cons_ne_nil _ _, h.filled⟩⟩
    obtain rfl | hg := List.mem_cons.1 hg
    · exact hlt
    · exact lt_trans hlt (hfirst g hg)
  | case3 ids more =>
    exact ⟨List.pairwise_cons.2 (List.pairwise_cons.1 h.collections),
      List.forall_mem_cons.2 ⟨by simp, (List.forall_mem_cons.1 h.filled).2⟩⟩
  | case4 collection ids more hnlt hne ih =>
    obtain ⟨hfirst, hrest⟩ := List.pairwise_cons.1 h.collections
    obtain ⟨hhead, hmore⟩ := List.forall_mem_cons.1 h.filled
    have hthere := ih ⟨hrest, hmore⟩
    refine ⟨List.pairwise_cons.2 ⟨fun g hg => ?_, hthere.collections⟩,
      List.forall_mem_cons.2 ⟨hhead, hthere.filled⟩⟩
    obtain hkey | hg := mem_addId hg
    · exact hkey ▸ lt_of_le_of_ne (le_of_not_gt hnlt) (Ne.symm hne)
    · exact hfirst g hg

/-- Any number of entities are gathered, and nothing else. -/
theorem mem_listed_foldl_addId {x : Entity} :
    x ∈ listed (l.foldl addId groups) ↔ x ∈ listed groups ∨ x ∈ l := by
  induction l generalizing groups with
  | nil => simp
  | cons e l ih => rw [List.foldl_cons, ih, mem_listed_addId, List.mem_cons, or_assoc]

theorem keyed_foldl_addId (h : Keyed groups) (l : List Entity) : Keyed (l.foldl addId groups) := by
  induction l generalizing groups with
  | nil => exact h
  | cons e l ih => exact ih (keyed_addId h e)

theorem mem_listed_gathered : e ∈ listed c.gathered ↔ e ∈ c.added ∨ e ∈ c.changed := by
  have hsorted : e ∈ listed c.gathered ↔
      e ∈ listed ((c.added.toList ++ c.changed.toList).foldl addId []) := by
    simp [mem_listed, gathered, mem_sortIds]
  rw [hsorted, mem_listed_foldl_addId]
  simp [SortedSet.mem_def]

theorem gathered_ordered (c : Changes) : Ordered c.gathered := by
  have hkeyed : Keyed ((c.added.toList ++ c.changed.toList).foldl addId []) :=
    keyed_foldl_addId ⟨List.Pairwise.nil, List.forall_mem_nil _⟩ _
  refine ⟨⟨List.pairwise_map.2 hkeyed.collections, List.forall_mem_map.2 fun g hg => ?_⟩,
    List.forall_mem_map.2 fun g _ => sortIds_increasing g.2⟩
  obtain ⟨id, hid⟩ := List.exists_mem_of_ne_nil _ (hkeyed.filled g hg)
  exact List.ne_nil_of_mem (mem_sortIds.2 hid)

/-- **Gathering and sorting is the same as putting neighbours together.** -/
theorem touched_eq_gathered (c : Changes) : c.touched = c.gathered := by
  have hsame : (c.added.union c.changed).toList = listed c.gathered := by
    refine SortedSet.eq_of_mem_iff (SortedSet.increasing _) (gathered_ordered c).increasing fun e => ?_
    rw [← SortedSet.mem_def, SortedSet.mem_union, mem_listed_gathered]
  rw [touched, hsame, ← (gathered_ordered c).eq_byCollection]

theorem touched_ordered (c : Changes) : Ordered c.touched :=
  ordered_byCollection (SortedSet.increasing _)

@[simp] theorem listed_touched (c : Changes) : listed c.touched = (c.added.union c.changed).toList :=
  listed_byCollection _

end ContentSync.Changes
