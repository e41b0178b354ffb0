import ContentSync.Notice.Dispatcher

/-!
# The orchestrator

The orchestrator lets one epoch run at a time and shows how far it has come.

* `Orchestrator.accept` — takes the place of the one epoch that may run;
* `Orchestrator.release` — frees it again.
-/

set_option autoImplicit false

namespace ContentSync

/-- What is shared by all who start, run and watch epochs. -/
structure Orchestrator where
  phase : Phase
  inFlight : Bool
  last : Option Epoch
  mailbox : Mailbox

namespace Orchestrator

def create (sinks : List Sink) : Orchestrator := ⟨.idle, false, none, .create sinks⟩

/-- Refuses while an epoch is in flight. -/
def accept (o : Orchestrator) : Except Failure Orchestrator :=
  if o.inFlight then .error .inFlight else .ok { o with inFlight := true }

def release (o : Orchestrator) : Orchestrator := { o with inFlight := false }

def publish (o : Orchestrator) (p : Phase) : Orchestrator := { o with phase := p }

def announce (o : Orchestrator) (e : Event) : Bool × Orchestrator :=
  let (queued, mailbox) := o.mailbox.emit e
  (queued, { o with mailbox := mailbox })

def remember (o : Orchestrator) (e : Epoch) : Orchestrator := { o with last := some e }

/-- What the server shows of the orchestrator. -/
def status (o : Orchestrator) : Json :=
  .ofMembers [("state", o.phase.json), ("running", .bool o.inFlight),
    ("lastEpoch", .optional Epoch.summary o.last)]

end Orchestrator

end ContentSync
