import ContentSync.Epoch.Report
import ContentSync.Time.Timestamp

/-!
# The record of an epoch

* `Epoch` — what is known about one run;
* `Epoch.finalize` — collects the comparisons and sets the outcome;
* `Epoch.json` — the whole record;
* `Epoch.summary` — the shorter record that the server shows.
-/

set_option autoImplicit false

namespace ContentSync

/-- One run of the synchronization. -/
structure Epoch where
  trigger : Trigger
  started : Timestamp
  finished : Option Timestamp
  /-- The kinds whose version changed, or whose committed version had to be restored. -/
  kinds : List KindReport
  /-- The union of the changes that are known. -/
  changes : Changes
  /-- The targets whose changes are not known. -/
  unknownChanges : List FetchTarget
  /-- What stopped the epoch before any kind was processed. -/
  error : Option Failure
  cancelled : Bool
  outcome : Option Outcome

namespace Epoch

/-- An epoch at its start. -/
def start (trigger : Trigger) (now : Timestamp) : Epoch :=
  ⟨trigger, now, none, [], .none, [], none, false, none⟩

/-- The reports of all targets, kind by kind. -/
def targets (e : Epoch) : List TargetReport := e.kinds.flatMap (·.targets)

def kind? (e : Epoch) (k : DataKind) : Option KindReport := e.kinds.find? fun r => r.kind = k

def oldVersion? (e : Epoch) (k : DataKind) : Option Version := (e.kind? k).bind (·.oldVersion)

def newVersion? (e : Epoch) (k : DataKind) : Option Version := (e.kind? k).map (·.newVersion)

/-- The targets whose payload was written. -/
def processed (e : Epoch) : List FetchTarget := (e.targets.filter (·.succeeded)).map (·.target)

/-- The targets that failed, with the failure that ended them. -/
def failed (e : Epoch) : List (FetchTarget × Failure) :=
  e.targets.filterMap fun t => t.error.map (t.target, ·)

/-- The union of the known changes of some targets. -/
def knownChanges (targets : List TargetReport) : Changes :=
  targets.foldl (fun total t =>
    match t.comparison with
    | some (.known changes) => total.merge changes
    | _ => total) .none

/-- The targets whose comparison failed. -/
def unknownTargets (targets : List TargetReport) : List FetchTarget :=
  targets.filterMap fun t =>
    match t.comparison with
    | some (.unknown _) => some t.target
    | _ => none

/-- Collects the comparisons of all targets. -/
def collect (e : Epoch) : Epoch :=
  { e with changes := knownChanges e.targets, unknownChanges := unknownTargets e.targets }

/-- The outcome that the reports call for. An epoch that was stopped or cancelled has failed. -/
def verdict (e : Epoch) : Outcome :=
  if e.error.isSome || e.cancelled then .failure else .decide e.kinds

/-- The finished epoch. -/
def finalize (e : Epoch) (now : Timestamp) : Epoch :=
  { e.collect with outcome := some e.verdict, finished := some now }

def timeJson (t : Timestamp) : Json := .string t.recordText

def json (e : Epoch) : Json :=
  .ofMembers [("trigger", e.trigger.json), ("trigger_time", timeJson e.started),
    ("finished_at", .optional timeJson e.finished), ("kinds", .array (e.kinds.map KindReport.json)),
    ("diff_summary", e.changes.json),
    ("unknown_changes", .array (e.unknownChanges.map FetchTarget.json)),
    ("error", .optional Failure.json e.error), ("cancelled", .bool e.cancelled),
    ("outcome", .optional Outcome.json e.outcome)]

def kindSummary (r : KindReport) : Json :=
  .ofMembers [("kind", r.kind.json), ("old", .optional Version.json r.oldVersion),
    ("new", r.newVersion.json), ("committed", .bool r.committed)]

def failureSummary (f : FetchTarget × Failure) : Json :=
  .ofMembers [("target", .string f.1.label), ("error", f.2.json)]

def summary (e : Epoch) : Json :=
  .ofMembers [("trigger", e.trigger.json), ("triggerTime", timeJson e.started),
    ("finishedAt", .optional timeJson e.finished), ("outcome", .optional Outcome.json e.outcome),
    ("versions", .array (e.kinds.map kindSummary)),
    ("segmentsProcessed", .texts (e.processed.map FetchTarget.label)),
    ("segmentsFailed", .array (e.failed.map failureSummary)),
    ("changed", Changes.groupsJson e.changes.touched),
    ("removed", .natural e.changes.removed.size),
    ("unknownChanges", .texts (e.unknownChanges.map FetchTarget.label)),
    ("error", .optional Failure.json e.error), ("cancelled", .bool e.cancelled)]

end Epoch

end ContentSync
