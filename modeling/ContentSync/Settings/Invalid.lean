import ContentSync.Content.Failure

/-!
# Invalid settings

* `Invalid` — why settings are refused;
* `Invalid.message` — the complaint that people read.
-/

set_option autoImplicit false

namespace ContentSync

/-- Why settings are refused. -/
inductive Invalid where
  | serviceAddress (url : String)
  | serviceTimeout
  | cacheHost
  | playerLifetime
  | attempts
  | delays
  | segmentPolicy (text : String)
  | concurrency
  | zero (name : String)
  | webhookAddress (url : String)
  deriving DecidableEq, Repr

namespace Invalid

def message : Invalid → String
  | serviceAddress url => "upstream URL must be http(s): '" ++ url ++ "'"
  | serviceTimeout => "upstream timeout must be positive"
  | cacheHost => "cache host is empty"
  | playerLifetime => "player TTL must be positive"
  | attempts => "retry max_attempts must be at least 1"
  | delays => "retry base delay exceeds max delay"
  | segmentPolicy text => "unknown segment policy '" ++ text ++ "'"
  | concurrency => "max_concurrent_fetches must be at least 1"
  | zero name => name ++ " must be positive"
  | webhookAddress url => "webhook URL must be http(s): '" ++ url ++ "'"

def failure (i : Invalid) : Failure := .config i.message

end Invalid

/-- Refuses unless a condition holds. -/
def demand (holds : Bool) (complaint : Invalid) : Except Invalid Unit :=
  if holds then .ok () else .error complaint

/-- Whether an address starts with the scheme `http` or `https`. -/
def isWebAddress (url : String) : Bool :=
  "http://".toList.isPrefixOf url.toList || "https://".toList.isPrefixOf url.toList

end ContentSync
