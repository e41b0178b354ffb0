import ContentSync.Settings.Policy
import ContentSync.Settings.Endpoints
import ContentSync.Settings.Setting

/-!
# Layers of settings

Settings come from the defaults, from a configuration file, and from the command line and the
environment. Each of these is a layer, which gives values to some of the settings; where two layers
give a value, the upper one counts.

* `Layer.orElse` — one layer above another;
* `Layer.defaults` — the values of settings that nobody gave;
* `Layer.orElse_assoc`, `Layer.orElse_empty`, `Layer.empty_orElse` — layers form a monoid.
-/

set_option autoImplicit false

namespace ContentSync

/-- The values of some settings. -/
abbrev Layer := (s : Setting) → Option s.kind.Value

/-- A setting and a value of it. -/
abbrev Assignment := (s : Setting) × s.kind.Value

namespace Layer

def empty : Layer := fun _ => none

/-- Gives a value to one setting. -/
def set (l : Layer) (a : Assignment) : Layer := fun s =>
  if h : a.1 = s then some (h ▸ a.2) else l s

/-- Takes the value of one setting away. -/
def unset (l : Layer) (s : Setting) : Layer := fun t => if t = s then none else l t

def ofList (assignments : List Assignment) : Layer := assignments.foldl set empty

/-- An upper layer above a lower one. -/
def orElse (upper lower : Layer) : Layer := fun s => (upper s).or (lower s)

@[simp] theorem orElse_empty (l : Layer) : orElse l empty = l := by
  funext s; simp [orElse, empty]

@[simp] theorem empty_orElse (l : Layer) : orElse empty l = l := by
  funext s; simp [orElse, empty]

theorem orElse_assoc (a b c : Layer) : orElse (orElse a b) c = orElse a (orElse b c) := by
  funext s; simp [orElse, Option.or_assoc]

@[simp] theorem set_self (l : Layer) (s : Setting) (v : s.kind.Value) :
    set l ⟨s, v⟩ s = some v := by
  simp [set]

theorem set_of_ne (l : Layer) {a : Assignment} {s : Setting} (h : a.1 ≠ s) : set l a s = l s := by
  simp [set, h]

/-- When an epoch starts by itself: every quarter of an hour. -/
def defaultSchedule : String := "0 */15 * * * *"

/-- The values of settings that nobody gave. The addresses of a configuration file, of a complete
cache address and of the webhook, and the secrets, have none. -/
def defaults : Layer
  | .portNumber => some (8080 : Nat)
  | .logDirectory => some "./logs"
  | .logLevel => some "info"
  | .serviceUrl => some ServiceSettings.default.baseUrl
  | .serviceTimeout => some ServiceSettings.default.timeout.wholeSeconds
  | .playerRetries => some ServiceSettings.default.playerRetries
  | .includePveUnits => some ServiceSettings.default.includePveUnits
  | .cacheHost => some CacheSettings.default.host
  | .cachePortNumber => some CacheSettings.default.portNumber
  | .playerLifetime => some CacheSettings.default.playerLifetime.wholeSeconds
  | .cacheBackend => some "redis"
  | .versionStore => some "redis"
  | .versionFile => some "./data/versions.json"
  | .segmentPolicy => some "all"
  | .maxAttempts => some SyncPolicy.default.retry.maxAttempts
  | .baseDelay => some SyncPolicy.default.retry.baseDelay.milliseconds
  | .maxDelay => some SyncPolicy.default.retry.maxDelay.milliseconds
  | .fetchTimeout => some SyncPolicy.default.fetchTimeout.wholeSeconds
  | .ioTimeout => some SyncPolicy.default.ioTimeout.wholeSeconds
  | .concurrency => some SyncPolicy.default.maxConcurrentFetches
  | .localizationUnzip => some SyncPolicy.default.unzip
  | .notifyUnchanged => some false
  | .schedule => some defaultSchedule
  | .syncOnStartup => some true
  | .configPath | .serviceAccessKey | .cacheUrl | .cachePassword | .webhookUrl => none

/-- The layer of a configuration file. A field that is `null` gives no value. -/
def decode? (w : Written) : Option Layer := do
  let fields ← w.fields? (Setting.all.map Setting.fieldName)
  let values ← Setting.all.mapM fun s => do
    let value ← Written.Fields.optional? fields s.fieldName s.kind.decode?
    pure (value.map fun v => (⟨s, v⟩ : Assignment))
  pure (ofList (values.filterMap id))

/-- The fields that the layer gives, under their names. -/
def given (l : Layer) : List (Setting × Json) :=
  Setting.all.filterMap fun s => (l s).map fun v => (s, s.kind.json v)

/-- Every field, `null` where there is no value. -/
def json (l : Layer) : Json :=
  .object (Setting.all.map fun s => (s.fieldName, .optional s.kind.json (l s)))

end Layer

end ContentSync
