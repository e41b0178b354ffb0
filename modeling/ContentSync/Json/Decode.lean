import ContentSync.Json.Written

/-!
# Decoding records

A record with known fields is read from the written form of a JSON text, so that only the fields it
knows are interpreted.

* `Written.fields?` — an object whose known keys do not repeat, or an array with one item for each
  field;
* `Fields.required?`, `Fields.optional?` — a field of a record; `null` counts as absent where a
  field may be absent;
* `Written.variant?` — a name alone, or the single member of an object.
-/

set_option autoImplicit false

namespace ContentSync.Written

/-- A string. -/
def text? : Written → Option String
  | .string q => q.text?
  | _ => none

/-- A natural number up to a limit, written without fraction and exponent. -/
def natural? (limit : Nat) : Written → Option Nat
  | .number l =>
    match l.number? with
    | some (.integer n) => if 0 ≤ n ∧ n ≤ limit then some n.toNat else none
    | _ => none
  | _ => none

def flag? : Written → Option Bool
  | .bool b => some b
  | _ => none

def isNull : Written → Bool
  | .null => true
  | _ => false

/-- The known fields of a record that are present. -/
abbrev Fields := List (String × Written)

/-- Keys as texts, `none` when one of them is no text. -/
def keyed? : List (Quoted × Written) → Option Fields
  | [] => some []
  | (q, w) :: rest => do
    let k ← q.text?
    let ms ← keyed? rest
    pure ((k, w) :: ms)

/-- The fields of a record with the given names. -/
def fields? (names : List String) : Written → Option Fields
  | .array items => if items.length = names.length then some (names.zip items) else none
  | .object members => do
    let ms ← keyed? members
    let known := ms.filter fun m => names.contains m.1
    if (known.map (·.1)).Nodup then pure known else none
  | _ => none

/-- A field that must be present. -/
def Fields.required? {α : Type} (fields : Fields) (name : String) (decode : Written → Option α) :
    Option α :=
  (List.lookup name fields).bind decode

/-- A field that may be absent or `null`; the outer option is the failure to decode it. -/
def Fields.optional? {α : Type} (fields : Fields) (name : String) (decode : Written → Option α) :
    Option (Option α) :=
  match List.lookup name fields with
  | none => some none
  | some w => if w.isNull then some none else (decode w).map some

/-- The name of a variant and what it carries. -/
def variant? : Written → Option (String × Option Written)
  | .string q => q.text?.map (·, none)
  | .object [(q, w)] => q.text?.map (·, some w)
  | _ => none

/-- The name of a variant that carries nothing. -/
def name? (w : Written) : Option String := do
  let (name, carried) ← w.variant?
  match carried with
  | none => pure name
  | some w => if w.isNull then pure name else none

end ContentSync.Written
