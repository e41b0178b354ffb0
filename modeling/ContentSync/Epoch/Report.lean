import ContentSync.Content.Failure
import ContentSync.Content.Target
import ContentSync.Diff.Changes
import ContentSync.Epoch.Phase

/-!
# Reports of an epoch

* `TargetReport` — what became of one target;
* `KindReport` — what became of one kind, with the reports of its targets;
* `Outcome.decide` — the outcome of an epoch that processed the given kinds.
-/

set_option autoImplicit false

namespace ContentSync

/-- The result of comparing a payload with the one of the previous version. -/
inductive Comparison where
  | known (changes : Changes)
  | unknown (reason : String)
  deriving DecidableEq

namespace Comparison

def json : Comparison → Json
  | known changes => .ofMembers [("result", .string "known"), ("detail", changes.json)]
  | unknown reason => .ofMembers [("result", .string "unknown"), ("detail", .string reason)]

end Comparison

/-- What became of one target. -/
structure TargetReport where
  target : FetchTarget
  /-- How often the target was asked for, the successful call included. -/
  attempts : Nat
  /-- Why the target could not be fetched or written. -/
  error : Option Failure
  /-- Absent when the target was never compared. -/
  comparison : Option Comparison

namespace TargetReport

/-- The payload is in the cache. -/
def succeeded (r : TargetReport) : Bool := r.error.isNone

def json (r : TargetReport) : Json :=
  .ofMembers [("target", r.target.json), ("attempts", .natural r.attempts),
    ("error", .optional Failure.json r.error), ("diff", .optional Comparison.json r.comparison)]

end TargetReport

/-- What became of one kind. -/
structure KindReport where
  kind : DataKind
  oldVersion : Option Version
  newVersion : Version
  /-- In processing order. -/
  targets : List TargetReport
  committed : Bool
  commitError : Option Failure

namespace KindReport

/-- The report of a kind that has been selected and nothing more. -/
def selected (kind : DataKind) (oldVersion : Option Version) (newVersion : Version) : KindReport :=
  ⟨kind, oldVersion, newVersion, [], false, none⟩

def failedTargets (r : KindReport) : List TargetReport := r.targets.filter fun t => !t.succeeded

def allFailed (r : KindReport) : Bool := !r.targets.isEmpty && r.targets.all fun t => !t.succeeded

def fullyWritten (r : KindReport) : Bool := !r.targets.isEmpty && r.targets.all (·.succeeded)

/-- The committed version was fetched again because entries of it had gone from the cache. -/
def restored (r : KindReport) : Bool := r.oldVersion == some r.newVersion

def json (r : KindReport) : Json :=
  .ofMembers [("kind", r.kind.json), ("old_version", .optional Version.json r.oldVersion),
    ("new_version", r.newVersion.json), ("segments", .array (r.targets.map TargetReport.json)),
    ("committed", .bool r.committed), ("commit_error", .optional Failure.json r.commitError)]

end KindReport

/-- The outcome of an epoch that got as far as selecting kinds. -/
def Outcome.decide (kinds : List KindReport) : Outcome :=
  if kinds.isEmpty then .unchanged
  else if kinds.any (·.commitError.isSome) then .failure
  else if kinds.all (·.committed) then .success
  else if kinds.all (·.allFailed) then .failure
  else .partly

end ContentSync
