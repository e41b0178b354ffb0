import ContentSync.Http.Client
import ContentSync.Notice.Embed
import ContentSync.Settings.Endpoints

/-!
# The webhook

Events are posted as messages to the address of the webhook.

* `Webhook.create` — the webhook of some settings; without an address events go nowhere;
* `Webhook.skips` — the events that are not posted;
* `Webhook.deliver` — posts an event.
-/

set_option autoImplicit false

namespace ContentSync

/-- Where messages are posted: a client for the machine, and the path on it. -/
structure Webhook where
  target : Option (ApiClient × String)
  notifyUnchanged : Bool

namespace Webhook

def create (s : NotifySettings) : Except Failure Webhook := do
  s.check.mapError Invalid.failure
  match s.webhookUrl with
  | none => pure ⟨none, s.notifyUnchanged⟩
  | some address =>
    match Url.parse address with
    | .error e => throw (.config ("invalid webhook URL: " ++ e.message))
    | .ok url => do
      let client ← ApiClient.create url.origin none
      pure ⟨some (client, url.afterOrigin), s.notifyUnchanged⟩

/-- Whether an event is not worth a message. -/
def skips (w : Webhook) (e : Event) : Bool := e.outcome == .unchanged && !w.notifyUnchanged

/-- Posts an event, unless it is skipped or there is no address. -/
def deliver (w : Webhook) (network : Network) (e : Event) : Except Failure Unit :=
  if w.skips e then .ok ()
  else
    match w.target with
    | none => .ok ()
    | some (client, path) =>
      (client.postDiscard network path (Embed.ofEvent e).message).map fun _ => ()

end Webhook

end ContentSync
