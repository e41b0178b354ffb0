import ContentSync.Diff.SortedSet
import ContentSync.Json.Basic

/-!
# Changes between two versions

* `Entity` — a top-level item of a payload, named by its collection and its id;
* `Changes` — the entities added, removed and changed;
* `Changes.merge` — the union of two reports; an entity reported twice counts once;
* `Changes.touched` — the ids of what was added or changed, by collection.
-/

set_option autoImplicit false

namespace ContentSync

open Std

/-- One entity. -/
structure Entity where
  collection : String
  id : String
  deriving DecidableEq, Repr

namespace Entity

/-- Entities are ordered by collection and then by id. -/
instance : Ord Entity := ⟨compareLex (compareOn collection) (compareOn id)⟩

instance : TransOrd Entity :=
  inferInstanceAs (TransCmp (compareLex (compareOn Entity.collection) (compareOn Entity.id)))

instance : LawfulEqOrd Entity where
  compare_self :=
    (inferInstance : ReflCmp (compareLex (compareOn collection) (compareOn id))).compare_self
  eq_of_compare := by
    intro a b h
    have h : compareLex (compareOn collection) (compareOn id) a b = .eq := h
    rw [compareLex_eq_eq] at h
    obtain ⟨h1, h2⟩ := h
    have e1 : a.collection = b.collection := LawfulEqOrd.eq_of_compare h1
    have e2 : a.id = b.id := LawfulEqOrd.eq_of_compare h2
    cases a; cases b; simp_all

def json (e : Entity) : Json :=
  .ofMembers [("collection", .string e.collection), ("id", .string e.id)]

end Entity

/-- What differs between two versions of a payload. -/
structure Changes where
  added : SortedSet Entity
  removed : SortedSet Entity
  changed : SortedSet Entity
  deriving DecidableEq

namespace Changes

/-- Nothing differs. -/
def none : Changes := ⟨∅, ∅, ∅⟩

def isEmpty (c : Changes) : Bool := c.added.isEmpty && c.removed.isEmpty && c.changed.isEmpty

def total (c : Changes) : Nat := c.added.size + c.removed.size + c.changed.size

/-- The union of two reports. -/
def merge (a b : Changes) : Changes :=
  ⟨a.added.union b.added, a.removed.union b.removed, a.changed.union b.changed⟩

/-- Puts the ids of neighbours in one collection together. -/
def byCollection : List Entity → List (String × List String)
  | [] => []
  | e :: rest =>
    match byCollection rest with
    | [] => [(e.collection, [e.id])]
    | (collection, ids) :: more =>
      if collection = e.collection then (collection, e.id :: ids) :: more
      else (e.collection, [e.id]) :: (collection, ids) :: more

/-- The ids that were added or changed, by collection, both in increasing order. -/
def touched (c : Changes) : List (String × List String) :=
  byCollection (c.added.union c.changed).toList

def entitiesJson (s : SortedSet Entity) : Json := .array (s.toList.map Entity.json)

def json (c : Changes) : Json :=
  .ofMembers [("added", entitiesJson c.added), ("removed", entitiesJson c.removed),
    ("changed", entitiesJson c.changed)]

/-- Ids by collection, as an object. -/
def groupsJson (groups : List (String × List String)) : Json :=
  .ofMembers (groups.map fun g => (g.1, Json.texts g.2))

end Changes

end ContentSync
