import ContentSync.Engine.Orchestrator
import ContentSync.Notice.Webhook
import ContentSync.Service.Client
import ContentSync.Settings.Server

/-!
# Starting the server

* `ServerState.build` — what the server works with, or which part of it cannot be made.
-/

set_option autoImplicit false

namespace ContentSync

/-- Which part of the server cannot be made. -/
inductive StartFailure where
  | contentService (cause : Failure)
  | webhook (cause : Failure)
  deriving DecidableEq, Repr

namespace StartFailure

def message : StartFailure → String
  | contentService _ => "Failed to build the content service client"
  | webhook _ => "Failed to build the webhook sink"

def cause : StartFailure → Failure
  | contentService cause => cause
  | webhook cause => cause

end StartFailure

/-- What the server works with. -/
structure ServerState where
  service : ContentService
  orchestrator : Orchestrator
  policy : SyncPolicy
  playerLifetime : Duration

namespace ServerState

/-- The consumers of events: a log, and the webhook. -/
def sinks (w : Webhook) (network : Network) : List Sink :=
  [.accepting "log", ⟨"webhook", w.deliver network, []⟩]

/-- Makes what the server works with, once the cache and the version store are there. -/
def build (s : ServerSettings) (network : Network) : Except StartFailure ServerState := do
  let service ← (ContentService.create s.service).mapError .contentService
  let webhook ← (Webhook.create s.notify).mapError .webhook
  pure ⟨service, .create (sinks webhook network), s.policy, s.cache.playerLifetime⟩

end ServerState

end ContentSync
