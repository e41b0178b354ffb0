import ContentSync.Epoch.Record
import ContentSync.Text.Blank

/-!
# Events

Every epoch is announced by one event, from which the transports make their messages.

* `Event.ofEpoch` — the event of a finished epoch;
* `Event.mentions` — whether the description speaks of a kind;
* `Severity.color` — the colour in which a message is shown.
-/

set_option autoImplicit false

namespace ContentSync

/-- How an event is presented. -/
inductive Severity where
  | success
  | error
  | warning
  | info
  deriving DecidableEq, Repr

namespace Severity

def label : Severity → String
  | success => "success"
  | error => "error"
  | warning => "warning"
  | info => "info"

def all : List Severity := [success, error, warning, info]

def ofLabel? (label : String) : Option Severity := all.find? fun s => s.label = label

def json (s : Severity) : Json := .string s.label

/-- Red, green and blue in one number. -/
def color : Severity → Nat
  | success => 0x2ECC71
  | error => 0xE74C3C
  | warning => 0xF1C40F
  | info => 0x3498DB

end Severity

def Outcome.severity : Outcome → Severity
  | success => .success
  | partly => .warning
  | failure => .error
  | unchanged => .info

/-- A named block of detail. -/
structure EventField where
  name : String
  value : String
  deriving DecidableEq, Repr

/-- What is told about an epoch. -/
structure Event where
  title : String
  description : String
  severity : Severity
  outcome : Outcome
  /-- Ids that were added or changed, by collection. -/
  changedItems : List (String × List String)
  fields : List EventField
  time : Timestamp
  deriving DecidableEq, Repr

namespace Event

/-- Lines of a text. -/
def joinLines (lines : List String) : String := String.intercalate "\n" lines

def titleOf (outcome : Outcome) (cancelled : Bool) : String :=
  match outcome, cancelled with
  | .success, _ => "Content updated"
  | .partly, _ => "Content partially updated"
  | .failure, true => "Content sync cancelled"
  | .failure, false => "Content sync failed"
  | .unchanged, _ => "No content update"

/-- What is said about a kind. -/
def kindLine (r : KindReport) : String :=
  let state := if r.committed then "committed" else "not committed"
  if r.restored then
    r.kind.heading ++ ": " ++ r.newVersion.text ++ " restored after cache expiry (" ++ state ++ ")"
  else
    let old := match r.oldVersion with
      | none => "none"
      | some v => v.text
    r.kind.heading ++ ": " ++ old ++ " -> " ++ r.newVersion.text ++ " (" ++ state ++ ")"

/-- The lines of the description: what stopped the epoch, a line for each kind, and a closing remark
when nothing had to be done. -/
def descriptionLines (e : Epoch) (outcome : Outcome) : List String :=
  (match e.error with
    | some f => ["Sync stopped before fetching: " ++ f.message]
    | none => [])
  ++ e.kinds.map kindLine
  ++ (if outcome = .unchanged then ["Game data and localization versions match upstream."] else [])

/-- A field, unless there is nothing to say. -/
def listField (name separator : String) (items : List String) : List EventField :=
  if items.isEmpty then [] else [⟨name, String.intercalate separator items⟩]

def fieldsOf (e : Epoch) : List EventField :=
  listField "Failed segments" "\n" (e.failed.map fun f => f.1.label ++ ": " ++ f.2.label)
  ++ listField "Commit errors" "\n"
      (e.kinds.filterMap fun r => r.commitError.map fun f => r.kind.label ++ ": " ++ f.label)
  ++ (match e.error with
    | some f => [⟨"Error class", f.label⟩]
    | none => [])
  ++ listField "Unknown changes" ", " (e.unknownChanges.map FetchTarget.label)
  ++ (if e.changes.removed.isEmpty then [] else [⟨"Removed", toString e.changes.removed.size⟩])

/-- The event of an epoch. One without an outcome counts as failed. -/
def ofEpoch (e : Epoch) : Event :=
  let outcome := e.outcome.getD .failure
  { title := titleOf outcome e.cancelled
    description := joinLines (descriptionLines e outcome)
    severity := outcome.severity
    outcome := outcome
    changedItems := e.changes.touched
    fields := fieldsOf e
    time := e.started }

/-- Whether the name of a kind stands in the description. -/
def mentions (e : Event) (k : DataKind) : Bool :=
  Text.occursIn k.heading.toList e.description.toList

def fieldJson (f : EventField) : Json :=
  .ofMembers [("name", .string f.name), ("value", .string f.value)]

def json (e : Event) : Json :=
  .ofMembers [("title", .string e.title), ("description", .string e.description),
    ("severity", e.severity.json), ("outcome", e.outcome.json),
    ("changed_items", Changes.groupsJson e.changedItems),
    ("fields", .array (e.fields.map fieldJson)), ("trigger_time", Epoch.timeJson e.time)]

end Event

end ContentSync
