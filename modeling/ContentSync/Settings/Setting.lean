import ContentSync.Json.Decode

/-!
# Settings by name

Each setting of the server has a kind of value and three spellings: a flag of the command line, an
environment variable and a field of the configuration file.

* `Setting` — the settings;
* `SettingKind.read` — a value from a word of the command line or from the environment;
* `SettingKind.decode?`, `SettingKind.json` — a value in the configuration file.
-/

set_option autoImplicit false

namespace ContentSync

/-- What values a setting has. -/
inductive SettingKind where
  | text
  /-- The place of a file, which is not empty. -/
  | path
  /-- A natural number that fits so many bits. -/
  | number (bits : Nat)
  | flag
  deriving DecidableEq, Repr

/-- Why a word is no value of a kind. -/
inductive BadValue where
  | notAllowed
  | notANumber
  deriving DecidableEq, Repr

namespace SettingKind

/-- The values of a kind. -/
abbrev Value : SettingKind → Type
  | text => String
  | path => String
  | number _ => Nat
  | flag => Bool

/-- The value of a list of decimal digits, `none` when it is empty or holds anything else. -/
def digits? (cs : List Char) : Option Nat :=
  if cs.isEmpty then none
  else cs.foldlM (fun n c => if c.isDigit then some (10 * n + (c.toNat - 48)) else none) 0

/-- A natural number of so many bits, after an optional plus sign. A number of fewer than 64 bits
may also carry a minus sign, so that zero has a second spelling. -/
def number? (bits : Nat) (text : String) : Option Nat := do
  let n ← match text.toList with
    | '+' :: cs => digits? cs
    | '-' :: cs => if bits < 64 then (digits? cs).filter (· = 0) else none
    | cs => digits? cs
  if n < Nat.pow 2 bits then some n else none

/-- The value that a word stands for. -/
def read : (k : SettingKind) → String → Except BadValue k.Value
  | text, word => .ok word
  | path, word => if word.isEmpty then .error .notAllowed else .ok word
  | number bits, word =>
    match number? bits word with
    | some n => .ok n
    | none => .error .notANumber
  | flag, word =>
    if word = "true" then .ok true
    else if word = "false" then .ok false
    else .error .notAllowed

/-- The value in a configuration file. -/
def decode? : (k : SettingKind) → Written → Option k.Value
  | text, w => w.text?
  | path, w => w.text?
  | number bits, w => w.natural? (Nat.pow 2 bits - 1)
  | flag, w => w.flag?

def json : (k : SettingKind) → k.Value → Json
  | text, s => .string s
  | path, s => .string s
  | number _, n => .natural n
  | flag, b => .bool b

end SettingKind

/-- A setting of the server. -/
inductive Setting where
  | portNumber
  | configPath
  | logDirectory
  | logLevel
  | serviceUrl
  | serviceAccessKey
  | serviceTimeout
  | playerRetries
  | includePveUnits
  | cacheUrl
  | cacheHost
  | cachePortNumber
  | cachePassword
  | playerLifetime
  | cacheBackend
  | versionStore
  | versionFile
  | segmentPolicy
  | maxAttempts
  | baseDelay
  | maxDelay
  | fetchTimeout
  | ioTimeout
  | concurrency
  | localizationUnzip
  | webhookUrl
  | notifyUnchanged
  | schedule
  | syncOnStartup
  deriving DecidableEq, Repr

namespace Setting

def all : List Setting :=
  [portNumber, configPath, logDirectory, logLevel, serviceUrl, serviceAccessKey, serviceTimeout,
    playerRetries, includePveUnits, cacheUrl, cacheHost, cachePortNumber, cachePassword,
    playerLifetime, cacheBackend, versionStore, versionFile, segmentPolicy, maxAttempts, baseDelay,
    maxDelay, fetchTimeout, ioTimeout, concurrency, localizationUnzip, webhookUrl, notifyUnchanged,
    schedule, syncOnStartup]

theorem mem_all (s : Setting) : s ∈ all := by cases s <;> decide

def kind : Setting → SettingKind
  | portNumber | cachePortNumber => .number 16
  | playerRetries | maxAttempts => .number 32
  | serviceTimeout | playerLifetime | baseDelay | maxDelay | fetchTimeout | ioTimeout
  | concurrency => .number 64
  | includePveUnits | localizationUnzip | notifyUnchanged | syncOnStartup => .flag
  | configPath | logDirectory | versionFile => .path
  | _ => .text

/-- The words of the name under which people set it. -/
def words : Setting → List String
  | portNumber => ["port"]
  | configPath => ["config", "path"]
  | logDirectory => ["log", "dir"]
  | logLevel => ["log", "level"]
  | serviceUrl => ["comlink", "url"]
  | serviceAccessKey => ["comlink", "access", "key"]
  | serviceTimeout => ["upstream", "timeout", "secs"]
  | playerRetries => ["player", "retries"]
  | includePveUnits => ["include", "pve", "units"]
  | cacheUrl => ["redis", "url"]
  | cacheHost => ["redis", "host"]
  | cachePortNumber => ["redis", "port"]
  | cachePassword => ["redis", "password"]
  | playerLifetime => ["player", "ttl", "secs"]
  | cacheBackend => ["cache", "backend"]
  | versionStore => ["version", "store"]
  | versionFile => ["version", "file"]
  | segmentPolicy => ["segment", "policy"]
  | maxAttempts => ["max", "attempts"]
  | baseDelay => ["base", "delay", "ms"]
  | maxDelay => ["max", "delay", "ms"]
  | fetchTimeout => ["fetch", "timeout", "secs"]
  | ioTimeout => ["io", "timeout", "secs"]
  | concurrency => ["concurrency"]
  | localizationUnzip => ["localization", "unzip"]
  | webhookUrl => ["webhook", "url"]
  | notifyUnchanged => ["notify", "unchanged"]
  | schedule => ["schedule"]
  | syncOnStartup => ["sync", "on", "startup"]

/-- The environment variable. Most are the words of the name after that of the program; those that
several programs share are not. -/
def environmentName : Setting → String
  | logDirectory => "LOG_DIR"
  | logLevel => "LOG_LEVEL"
  | serviceUrl => "SWGOH_COMLINK_URL"
  | serviceAccessKey => "SWGOH_COMLINK_ACCESS_KEY"
  | cacheUrl => "REDIS_URL"
  | cacheHost => "REDIS_HOST"
  | cachePortNumber => "REDIS_PORT"
  | cachePassword => "REDIS_PASSWORD"
  | webhookUrl => "DISCORD_WEBHOOK_URL"
  | s => "DATASYNC_" ++ "_".intercalate (s.words.map String.toUpper)

/-- The long flag, without the dashes before it. -/
def flagName (s : Setting) : String := "-".intercalate s.words

/-- The field of the configuration file: the words run together, each but the first with a capital
letter. -/
def fieldName (s : Setting) : String :=
  match s.words with
  | [] => ""
  | word :: rest => word ++ String.join (rest.map String.capitalize)

def ofFlag? (name : String) : Option Setting := all.find? fun s => s.flagName = name

end Setting

end ContentSync
