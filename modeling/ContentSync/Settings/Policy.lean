import ContentSync.Content.Target
import ContentSync.Settings.Retry
import ContentSync.Text.Blank

/-!
# The policy of an epoch

* `SegmentPolicy` — which segments of game data an epoch keeps in the cache;
* `SyncPolicy` — retries, limits on calls, lifetimes of entries and concurrency;
* `SyncPolicy.targets` — the targets of a kind, in processing order.
-/

set_option autoImplicit false

namespace ContentSync

/-- Which segments are fetched. -/
inductive SegmentPolicy where
  | allSegments
  | fullOnly
  deriving DecidableEq, Repr

namespace SegmentPolicy

def code : SegmentPolicy → String
  | allSegments => "all_segments"
  | fullOnly => "full_only"

def ofCode? (code : String) : Option SegmentPolicy :=
  [allSegments, fullOnly].find? fun p => p.code = code

def json (p : SegmentPolicy) : Json := .string p.code

def decode? (w : Written) : Option SegmentPolicy := w.name?.bind ofCode?

/-- Lower case, with underscores for dashes. -/
def normalize (text : String) : String :=
  String.ofList ((Text.trimChars text.toList).map fun c => if c = '-' then '_' else c.toLower)

/-- The policy of a setting, in either case, with dashes or underscores. -/
def parse (text : String) : Except Invalid SegmentPolicy :=
  let name := normalize text
  if name = "all" ∨ name = "all_segments" then .ok allSegments
  else if name = "full" ∨ name = "full_only" then .ok fullOnly
  else .error (.segmentPolicy name)

def segments : SegmentPolicy → List Segment
  | allSegments => Segment.all
  | fullOnly => [.full]

end SegmentPolicy

/-- How an epoch is run. -/
structure SyncPolicy where
  segmentPolicy : SegmentPolicy
  retry : Retry
  /-- The limit on one call to the content service. -/
  fetchTimeout : Duration
  /-- The limit on one call to the cache or the version store. -/
  ioTimeout : Duration
  gameDataLifetime : Duration
  localizationLifetime : Duration
  /-- Whether the localization bundle is asked for as separate files. -/
  unzip : Bool
  maxConcurrentFetches : Nat
  deriving DecidableEq, Repr

namespace SyncPolicy

def default : SyncPolicy where
  segmentPolicy := .allSegments
  retry := .default
  fetchTimeout := .seconds 60
  ioTimeout := .seconds 10
  gameDataLifetime := .seconds 86400
  localizationLifetime := .seconds 86400
  unzip := true
  maxConcurrentFetches := 5

def check (p : SyncPolicy) : Except Invalid Unit := do
  p.retry.check
  demand (p.maxConcurrentFetches != 0) .concurrency
  demand (!p.fetchTimeout.isZero) (.zero "fetch_timeout")
  demand (!p.ioTimeout.isZero) (.zero "io_timeout")
  demand (!p.gameDataLifetime.isZero) (.zero "game_data_ttl")
  demand (!p.localizationLifetime.isZero) (.zero "localization_ttl")

/-- The targets of a kind, in processing order. -/
def targets (p : SyncPolicy) : DataKind → List FetchTarget
  | .gameData => p.segmentPolicy.segments.map .gameData
  | .localization => [.localization]

/-- How long an entry of a kind lives. -/
def lifetime (p : SyncPolicy) : DataKind → Duration
  | .gameData => p.gameDataLifetime
  | .localization => p.localizationLifetime

end SyncPolicy

end ContentSync
