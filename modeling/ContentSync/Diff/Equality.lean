import ContentSync.Json.Basic

/-!
# Structural equality

Two values are structurally equal when they hold the same data. Arrays in which every element has an
id, and no id twice, are sets keyed by id; every other array is a sequence.

* `Json.entityId?` — the id of an object, a text or the text of a number;
* `Json.keyed` — whether an array is a set keyed by id;
* `Json.structurallyEqual` — the comparison.
-/

set_option autoImplicit false

namespace ContentSync.Json

/-- The id of an element. -/
def entityId? (item : Json) : Option String :=
  match item.field? "id" with
  | some (.string s) => some s
  | some (.number n) => some n.text
  | _ => none

/-- The ids of the elements, `none` when one of them has none. -/
def entityIds? : List Json → Option (List String)
  | [] => some []
  | v :: rest => do
    let id ← v.entityId?
    let ids ← entityIds? rest
    pure (id :: ids)

/-- Whether an array is a set keyed by id. An empty array is not, but compares the same either way.
-/
def keyed (items : List Json) : Bool :=
  match entityIds? items with
  | some ids => !items.isEmpty && decide ids.Nodup
  | none => false

/-- The first element with an id. -/
def withId? (id : String) (items : List Json) : Option Json :=
  items.find? fun v => v.entityId? == some id

mutual

def structurallyEqual : Json → Json → Bool
  | .null, .null => true
  | .bool a, .bool b => a == b
  | .number a, .number b => a.same b
  | .string a, .string b => a == b
  | .array x, .array y =>
    x.length == y.length && if keyed x && keyed y then eachById x y else eachInOrder x y
  | .object x, .object y => x.length == y.length && eachByKey x y
  | _, _ => false

/-- Every member has an equal one under the same key. -/
def eachByKey : List (String × Json) → List (String × Json) → Bool
  | [], _ => true
  | (k, v) :: rest, y =>
    (match lookup k y with
      | some w => structurallyEqual v w
      | none => false) && eachByKey rest y

/-- Every element has an equal one with the same id. -/
def eachById : List Json → List Json → Bool
  | [], _ => true
  | v :: rest, y =>
    (match v.entityId? with
      | some id =>
        match withId? id y with
        | some w => structurallyEqual v w
        | none => false
      | none => false) && eachById rest y

/-- The elements at equal positions are equal. -/
def eachInOrder : List Json → List Json → Bool
  | v :: rest, w :: more => structurallyEqual v w && eachInOrder rest more
  | _, _ => true

end

end ContentSync.Json
