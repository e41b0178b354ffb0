import ContentSync.Json.Basic

/-!
# Failures

Everything that can go wrong while content is synchronized.

* `Failure.message` — what people read;
* `Failure.transient` — whether trying again may help: only failures of the network qualify;
* `Failure.httpStatus` — the status with which the server answers.
-/

set_option autoImplicit false

namespace ContentSync

/-- The causes of failure. -/
inductive Failure where
  | timeout (detail : String)
  | unreachable (detail : String)
  | status (code : Nat) (body : String)
  | malformed (detail : String)
  | persistence (detail : String)
  | cacheWrite (detail : String)
  | cacheRead (detail : String)
  | comparison (detail : String)
  | allyCode (raw : String)
  | inFlight
  | cancelled
  | config (detail : String)
  deriving DecidableEq, Repr

namespace Failure

/-- The name of the class of a failure. -/
def label : Failure → String
  | timeout _ => "UpstreamTimeout"
  | unreachable _ => "UpstreamUnreachable"
  | status _ _ => "UpstreamError"
  | malformed _ => "MalformedResponse"
  | persistence _ => "PersistenceError"
  | cacheWrite _ => "CacheWriteError"
  | cacheRead _ => "CacheReadError"
  | comparison _ => "DiffComparisonError"
  | allyCode _ => "InvalidAllyCode"
  | inFlight => "EpochInFlight"
  | cancelled => "Cancelled"
  | config _ => "Config"

def message : Failure → String
  | timeout detail => "Upstream timed out: " ++ detail
  | unreachable detail => "Upstream unreachable: " ++ detail
  | status code body => "Upstream returned status " ++ toString code ++ ": " ++ body
  | malformed detail => "Malformed upstream response: " ++ detail
  | persistence detail => "Persistence error: " ++ detail
  | cacheWrite detail => "Cache write error: " ++ detail
  | cacheRead detail => "Cache read error: " ++ detail
  | comparison detail => "Diff comparison error: " ++ detail
  | allyCode raw => "Invalid ally code: " ++ raw
  | inFlight => "A sync epoch is already in flight"
  | cancelled => "Sync epoch cancelled"
  | config detail => "Configuration error: " ++ detail

/-- Status answers, undecodable answers and failures of the stores mean an outage or a changed
contract, which no further attempt mends. -/
def transient : Failure → Bool
  | timeout _ | unreachable _ => true
  | _ => false

/-- The failure with the class of the given name, `none` for one that carries more than a text. -/
def ofLabel? (label detail : String) : Option Failure :=
  match label with
  | "UpstreamTimeout" => some (timeout detail)
  | "UpstreamUnreachable" => some (unreachable detail)
  | "MalformedResponse" => some (malformed detail)
  | "PersistenceError" => some (persistence detail)
  | "CacheWriteError" => some (cacheWrite detail)
  | "CacheReadError" => some (cacheRead detail)
  | "DiffComparisonError" => some (comparison detail)
  | "InvalidAllyCode" => some (allyCode detail)
  | "Config" => some (config detail)
  | _ => none

def json (f : Failure) : Json :=
  .ofMembers [("class", .string f.label), ("message", .string f.message)]

/-- The status of an answer that reports a failure. -/
def httpStatus : Failure → Nat
  | allyCode _ => 400
  | inFlight => 409
  | status 404 _ => 404
  | status _ _ | unreachable _ | malformed _ => 502
  | timeout _ => 504
  | cancelled => 503
  | persistence _ | cacheWrite _ | cacheRead _ | comparison _ | config _ => 500

/-- The body of an answer that reports a failure. -/
def httpBody (f : Failure) : Json := .object [("error", f.json)]

end Failure

end ContentSync
