import ContentSync.Json.Basic

/-!
# Triggers, phases and outcomes of an epoch

An epoch is one run of the synchronization.

* `Trigger` — what started it;
* `Phase` — how far it has come; without an epoch the phase is `idle`;
* `Outcome` — how it ended.
-/

set_option autoImplicit false

namespace ContentSync

/-- What starts an epoch. -/
inductive Trigger where
  | startup
  | scheduled
  | manual
  deriving DecidableEq, Repr

namespace Trigger

def label : Trigger → String
  | startup => "startup"
  | scheduled => "scheduled"
  | manual => "manual"

def all : List Trigger := [startup, scheduled, manual]

def ofLabel? (label : String) : Option Trigger := all.find? fun t => t.label = label

def json (t : Trigger) : Json := .string t.label

end Trigger

/-- The phase that is published while an epoch runs. -/
inductive Phase where
  | idle
  | checking
  | fetching (completed total : Nat)
  | writing
  | notifying
  | failed
  deriving DecidableEq, Repr

namespace Phase

def label : Phase → String
  | idle => "IDLE"
  | checking => "CHECKING"
  | fetching _ _ => "FETCHING"
  | writing => "WRITING"
  | notifying => "NOTIFYING"
  | failed => "FAILED"

/-- The label, with the progress of the fetches. -/
def text (p : Phase) : String :=
  match p with
  | fetching completed total =>
    p.label ++ " (" ++ toString completed ++ "/" ++ toString total ++ ")"
  | _ => p.label

def json (p : Phase) : Json :=
  let name := ("state", Json.string p.label)
  match p with
  | fetching completed total =>
    .ofMembers [name, ("completed", .natural completed), ("total", .natural total)]
  | _ => .ofMembers [name]

end Phase

/-- How an epoch ended. -/
inductive Outcome where
  | success
  | partly
  | failure
  | unchanged
  deriving DecidableEq, Repr

namespace Outcome

def label : Outcome → String
  | success => "success"
  | partly => "partial"
  | failure => "failure"
  | unchanged => "unchanged"

def all : List Outcome := [success, partly, failure, unchanged]

def ofLabel? (label : String) : Option Outcome := all.find? fun o => o.label = label

def json (o : Outcome) : Json := .string o.label

end Outcome

end ContentSync
