import ContentSync.Settings.Layer
import ContentSync.Store.FileSystem

/-!
# The settings of the server

* `Layer.resolve` — the settings that a layer above the defaults stands for, each group
  checked in turn;
* `ServerSettings.load` — the settings of a given layer above the configuration file that it names,
  or above the one in the usual place, which need not be there.
-/

set_option autoImplicit false

namespace ContentSync

/-- Where the cache is kept. -/
inductive CacheBackend where
  | redis
  | memory
  deriving DecidableEq, Repr

namespace CacheBackend

def name : CacheBackend → String
  | redis => "redis"
  | memory => "memory"

end CacheBackend

/-- Where the versions in force are kept. -/
inductive VersionBackend where
  | redis
  | file (path : String)
  | memory
  deriving DecidableEq, Repr

/-- Settings that are checked together. -/
inductive SettingsGroup where
  | service
  | cache
  | segmentPolicy
  | policy
  | notify
  deriving DecidableEq, Repr

def SettingsGroup.name : SettingsGroup → String
  | service => "upstream settings"
  | cache => "cache settings"
  | segmentPolicy => "segment policy"
  | policy => "sync policy"
  | notify => "notification settings"

/-- Why the settings cannot be used. -/
inductive SettingsError where
  | missingFile (path : String)
  | unreadableFile (path : String)
  | malformedFile (path : String)
  | invalid (group : SettingsGroup) (cause : Invalid)
  | cacheBackend (name : String)
  | versionStore (name : String)
  deriving DecidableEq, Repr

namespace SettingsError

def message : SettingsError → String
  | missingFile path => "Config file not found at " ++ path
  | unreadableFile path => "Failed to read config file " ++ path
  | malformedFile path => "Failed to parse config file " ++ path
  | invalid group _ => "Invalid " ++ group.name
  | cacheBackend name => "Unknown cache backend '" ++ name ++ "' (expected redis or memory)"
  | versionStore name => "Unknown version store '" ++ name ++ "' (expected redis, file or memory)"

/-- The failure behind the error. -/
def cause : SettingsError → Option Failure
  | invalid _ cause => some cause.failure
  | _ => none

end SettingsError

/-- Everything the server needs to start. -/
structure ServerSettings where
  portNumber : Nat
  logDirectory : String
  logLevel : String
  service : ServiceSettings
  cache : CacheSettings
  policy : SyncPolicy
  notify : NotifySettings
  cacheBackend : CacheBackend
  versionBackend : VersionBackend
  schedule : String
  syncOnStartup : Bool
  deriving DecidableEq, Repr

namespace Layer

/-- The value of a text setting, where an empty text counts as no value. -/
def filled (text : Option String) : Option String := text.filter (· ≠ "")

def service (l : Layer) : ServiceSettings where
  baseUrl := (l .serviceUrl).getD ""
  accessKey := filled (l .serviceAccessKey)
  timeout := .seconds ((l .serviceTimeout).getD (0 : Nat))
  playerRetries := (l .playerRetries).getD (0 : Nat)
  includePveUnits := (l .includePveUnits).getD false

def cache (l : Layer) : CacheSettings where
  url := filled (l .cacheUrl)
  host := (l .cacheHost).getD ""
  portNumber := (l .cachePortNumber).getD (0 : Nat)
  password := filled (l .cachePassword)
  playerLifetime := .seconds ((l .playerLifetime).getD (0 : Nat))

def policy (l : Layer) (segments : SegmentPolicy) : SyncPolicy where
  segmentPolicy := segments
  retry.maxAttempts := (l .maxAttempts).getD (0 : Nat)
  retry.baseDelay := .milli ((l .baseDelay).getD (0 : Nat))
  retry.maxDelay := .milli ((l .maxDelay).getD (0 : Nat))
  fetchTimeout := .seconds ((l .fetchTimeout).getD (0 : Nat))
  ioTimeout := .seconds ((l .ioTimeout).getD (0 : Nat))
  gameDataLifetime := SyncPolicy.default.gameDataLifetime
  localizationLifetime := SyncPolicy.default.localizationLifetime
  unzip := (l .localizationUnzip).getD true
  maxConcurrentFetches := (l .concurrency).getD (0 : Nat)

def notify (l : Layer) : NotifySettings where
  webhookUrl := filled (l .webhookUrl)
  notifyUnchanged := (l .notifyUnchanged).getD false

/-- The backend of the cache, named in either case. -/
def cacheBackend (l : Layer) : Except SettingsError CacheBackend :=
  match ((l .cacheBackend).getD "redis" : String).toLower with
  | "redis" => .ok .redis
  | "memory" => .ok .memory
  | name => .error (.cacheBackend name)

/-- The backend of the version store, named in either case. -/
def versionBackend (l : Layer) : Except SettingsError VersionBackend :=
  match ((l .versionStore).getD "redis" : String).toLower with
  | "redis" => .ok .redis
  | "file" => .ok (.file ((l .versionFile).getD "./data/versions.json"))
  | "memory" => .ok .memory
  | name => .error (.versionStore name)

/-- The schedule; a blank one stands for the usual one. -/
def schedule (l : Layer) : String :=
  let given : String := (l .schedule).getD defaultSchedule
  if (Text.trimChars given.toList).isEmpty then defaultSchedule else given

/-- Refuses a group of settings together with the complaint about it. -/
def demandGroup {α : Type} (group : SettingsGroup) (check : Except Invalid α) :
    Except SettingsError α :=
  check.mapError (.invalid group)

/-- The settings of a layer that gives all values. -/
def settings (l : Layer) : Except SettingsError ServerSettings := do
  demandGroup .service l.service.check
  demandGroup .cache l.cache.check
  let segments ← demandGroup .segmentPolicy (SegmentPolicy.parse ((l .segmentPolicy).getD "all"))
  let policy := l.policy segments
  demandGroup .policy policy.check
  demandGroup .notify l.notify.check
  let cacheBackend ← l.cacheBackend
  let versionBackend ← l.versionBackend
  pure {
    portNumber := (l .portNumber).getD (8080 : Nat)
    logDirectory := (l .logDirectory).getD "./logs"
    logLevel := (l .logLevel).getD "info"
    service := l.service
    cache := l.cache
    policy
    notify := l.notify
    cacheBackend
    versionBackend
    schedule := l.schedule
    syncOnStartup := (l .syncOnStartup).getD true }

/-- The settings of a layer above the defaults. -/
def resolve (l : Layer) : Except SettingsError ServerSettings := (l.orElse defaults).settings

end Layer

namespace ServerSettings

/-- The place of the configuration file when none is given. -/
def usualFile : String := "server_datasync.conf"

/-- The layer of the configuration file under a path. -/
def fileLayer (files : FileSystem) (path : String) : Except SettingsError Layer :=
  match files.read ⟨[], path⟩ with
  | .error _ => .error (.unreadableFile path)
  | .ok text =>
    match (Written.parse? text).bind Layer.decode? with
    | some l => .ok l
    | none => .error (.malformedFile path)

/-- The place of the configuration file. -/
def filePath (given : Layer) : String := (given .configPath).getD usualFile

/-- The layer of the configuration file above the defaults. The file may be missing if the given layer
does not name it. -/
def belowGiven (files : FileSystem) (given : Layer) : Except SettingsError Layer :=
  match files.find ⟨[], filePath given⟩ with
  | .ok _ => (fileLayer files (filePath given)).map fun file => file.orElse .defaults
  | .error _ =>
    if (given .configPath).isSome then .error (.missingFile (filePath given)) else .ok .defaults

/-- The settings of a given layer above the configuration file above the defaults. -/
def load (files : FileSystem) (given : Layer) : Except SettingsError ServerSettings := do
  let below ← belowGiven files given
  (given.orElse below).resolve

end ServerSettings

end ContentSync
