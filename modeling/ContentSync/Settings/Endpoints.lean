import ContentSync.Settings.Invalid
import ContentSync.Text.Blank
import ContentSync.Time.Duration

/-!
# Addresses of other services

* `ServiceSettings` — the content service;
* `CacheSettings` — the key-value server behind the cache;
* `NotifySettings` — the webhook that receives messages.
-/

set_option autoImplicit false

namespace ContentSync

/-- How long the record of a player lives in the cache. -/
def playerLifetime : Duration := .seconds 3600

/-- The content service. -/
structure ServiceSettings where
  baseUrl : String
  accessKey : Option String
  timeout : Duration
  /-- How often a failed lookup of a player is repeated. -/
  playerRetries : Nat
  includePveUnits : Bool
  deriving DecidableEq, Repr

namespace ServiceSettings

def default : ServiceSettings := ⟨"http://localhost:3000", none, .seconds 60, 2, false⟩

def check (s : ServiceSettings) : Except Invalid Unit := do
  demand (isWebAddress s.baseUrl) (.serviceAddress s.baseUrl)
  demand (!s.timeout.isZero) .serviceTimeout

/-- The settings in one line, which tells only whether there is an access key. -/
def text (s : ServiceSettings) : String :=
  s.baseUrl ++ " (access key: " ++ (if s.accessKey.isSome then "set" else "none")
    ++ ", timeout: " ++ toString s.timeout.wholeSeconds ++ "s, player retries: "
    ++ toString s.playerRetries ++ ")"

end ServiceSettings

/-- The server behind the cache. A full address counts before its parts. -/
structure CacheSettings where
  url : Option String
  host : String
  portNumber : Nat
  password : Option String
  playerLifetime : Duration
  deriving DecidableEq, Repr

namespace CacheSettings

def default : CacheSettings := ⟨none, "localhost", 6379, none, ContentSync.playerLifetime⟩

/-- The address to which a connection is made. -/
def address (s : CacheSettings) : String :=
  match s.url with
  | some url => url
  | none =>
    let user := match s.password with
      | some password => ":" ++ password ++ "@"
      | none => ""
    "redis://" ++ user ++ s.host ++ ":" ++ toString s.portNumber ++ "/"

def check (s : CacheSettings) : Except Invalid Unit := do
  demand (s.url.isSome || !(Text.trimChars s.host.toList).isEmpty) .cacheHost
  demand (!s.playerLifetime.isZero) .playerLifetime

end CacheSettings

/-- The webhook. -/
structure NotifySettings where
  webhookUrl : Option String
  /-- Epochs that found nothing to do are announced too. -/
  notifyUnchanged : Bool
  deriving DecidableEq, Repr

namespace NotifySettings

def default : NotifySettings := ⟨none, false⟩

def check (s : NotifySettings) : Except Invalid Unit :=
  match s.webhookUrl with
  | some url => demand (isWebAddress url) (.webhookAddress url)
  | none => .ok ()

end NotifySettings

end ContentSync
