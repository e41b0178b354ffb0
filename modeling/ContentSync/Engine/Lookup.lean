import ContentSync.Engine.Program
import ContentSync.Settings.Endpoints

/-!
# Looking up players

A lookup asks the cache first and the content service only when the record is not there. A cache
that fails is no reason for a lookup to fail.

* `lookup` — the record of a player, and where it came from.
-/

set_option autoImplicit false

namespace ContentSync.Engine

/-- Where a record came from. -/
inductive Source where
  | cache
  | service
  deriving DecidableEq, Repr

/-- How a source is shown to clients of the server. -/
def Source.label : Source → String
  | cache => "HIT"
  | service => "MISS"

/-- Looks up the record of a well-formed code. -/
def lookupCode (lifetime : Duration) (code : AllyCode) :
    Program (Except Failure (Json × Source)) := do
  let key := CacheKey.ofPlayer code
  match ← Program.request (.wait (.read key)) with
  | .ok (some record) => pure (.ok (record, .cache))
  | _ =>
    match ← Program.request (.wait (.player code)) with
    | .error f => pure (.error f)
    | .ok record =>
      let _ ← Program.request (.wait (.write key record lifetime))
      pure (.ok (record, .service))

/-- Looks up a player by a code as people write it. -/
def lookup (lifetime : Duration) (raw : String) : Program (Except Failure (Json × Source)) :=
  match AllyCode.parse? raw with
  | none => pure (.error (.allyCode raw))
  | some code => lookupCode lifetime code

end ContentSync.Engine
