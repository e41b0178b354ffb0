import ContentSync.Content.Failure
import ContentSync.Content.Segment
import ContentSync.Diff.Changes
import ContentSync.Diff.Equality

/-!
# Comparing payloads

A payload of game data is an object of collections. A collection is an array of objects with ids, an
object whose keys are its ids, `null` for no entity at all, or a single value that is one entity
with the name of its collection. Only the collections that a segment owns are looked at: in the
answer to a request for one segment the others are empty placeholders.

* `Incomparable` — why two payloads cannot be compared;
* `index` — the entities of a collection by id;
* `diff` — the changes within the collections of a segment;
* `diffBundle` — the changes between localization bundles, of which every key is an entity.
-/

set_option autoImplicit false

namespace ContentSync.Diff

/-- Which payload a complaint is about. -/
inductive Side where
  | newPayload
  | oldPayload
  | newBundle
  | oldBundle
  deriving DecidableEq, Repr

def Side.label : Side → String
  | newPayload => "new payload"
  | oldPayload => "previous payload"
  | newBundle => "new bundle"
  | oldBundle => "previous bundle"

/-- Why payloads cannot be compared. -/
inductive Incomparable where
  | notObject (side : Side)
  | missingCollection (scope : Segment) (collection : String)
  | withoutId (collection : String) (position : Nat)
  | repeatedId (collection id : String)
  deriving DecidableEq, Repr

namespace Incomparable

def message : Incomparable → String
  | notObject side => side.label ++ " is not a JSON object"
  | missingCollection scope collection =>
    "payload for " ++ scope.label ++ " is missing top-level key '" ++ collection ++ "'"
  | withoutId collection position =>
    "element " ++ toString position ++ " of '" ++ collection ++ "' has no usable 'id'"
  | repeatedId collection id => "'" ++ collection ++ "' holds id '" ++ id ++ "' more than once"

def failure (i : Incomparable) : Failure := .comparison i.message

end Incomparable

/-- Entities by id, no id twice. -/
abbrev Index := List (String × Json)

/-- Indexes the elements of an array from a position on, after those already seen. -/
def indexFrom (collection : String) : Nat → Index → List Json → Except Incomparable Index
  | _, seen, [] => .ok seen.reverse
  | position, seen, item :: rest =>
    match item.entityId? with
    | none => .error (.withoutId collection position)
    | some id =>
      if (Json.lookup id seen).isSome then .error (.repeatedId collection id)
      else indexFrom collection (position + 1) ((id, item) :: seen) rest

/-- The entities of a collection. -/
def index (collection : String) : Json → Except Incomparable Index
  | .null => .ok []
  | .array items => indexFrom collection 0 [] items
  | .object members => .ok members
  | scalar => .ok [(collection, scalar)]

/-- The ids of one index that satisfy a condition, as entities of a collection. -/
def select (collection : String) (entries : Index) (p : String → Json → Bool) : SortedSet Entity :=
  .ofList ((entries.filter fun e => p e.1 e.2).map fun e => ⟨collection, e.1⟩)

/-- The changes from one index to another. -/
def compareIndexes (collection : String) (old new : Index) : Changes where
  added := select collection new fun id _ => (Json.lookup id old).isNone
  removed := select collection old fun id _ => (Json.lookup id new).isNone
  changed := select collection new fun id value =>
    match Json.lookup id old with
    | some before => !before.structurallyEqual value
    | none => false

/-- The members of an object. -/
def membersOf (side : Side) : Json → Except Incomparable Index
  | .object members => .ok members
  | _ => .error (.notObject side)

/-- The changes of one collection. A collection that the old payload lacks counts as empty. -/
def diffCollection (scope : Segment) (old new : Index) (collection : String) :
    Except Incomparable Changes := do
  let newValue ← match Json.lookup collection new with
    | some value => pure value
    | none => throw (.missingCollection scope collection)
  let oldIndex ← match Json.lookup collection old with
    | some value => index collection value
    | none => pure []
  let newIndex ← index collection newValue
  pure (compareIndexes collection oldIndex newIndex)

/-- The changes of several collections, the first complaint ending the comparison. -/
def diffCollections (scope : Segment) (old new : Index) : List String → Except Incomparable Changes
  | [] => .ok .none
  | collection :: rest => do
    let here ← diffCollection scope old new collection
    let others ← diffCollections scope old new rest
    pure (here.merge others)

/-- The changes within a segment. Without an old payload everything is added. -/
def diff (old : Option Json) (new : Json) (scope : Segment) : Except Incomparable Changes := do
  let newMembers ← membersOf .newPayload new
  let oldMembers ← match old with
    | some value => membersOf .oldPayload value
    | none => pure []
  diffCollections scope oldMembers newMembers scope.owned

/-- The collection under which the entities of a localization bundle are reported. -/
def bundleCollection : String := "localization"

/-- The changes between two localization bundles. -/
def diffBundle (old : Option Json) (new : Json) : Except Incomparable Changes := do
  let newMembers ← membersOf .newBundle new
  let oldMembers ← match old with
    | some value => membersOf .oldBundle value
    | none => pure []
  pure (compareIndexes bundleCollection oldMembers newMembers)

end ContentSync.Diff
