import ContentSync.Diff.Compare
import ContentSync.Engine.Retry

/-!
# Writing what was fetched

Each payload is compared with the one of the previous version and then written. A kind is committed
only when every target of it was fetched and written; after the commit the entries of the previous
version are removed.

* `Fetched` — what became of the fetch of a target;
* `compareTarget` — the changes since the previous version;
* `writeTarget` — the report of a target;
* `commitKind` — the commit of a kind;
* `writing` — the second part of an epoch;
* `concluding` — its last part, which tells how it ended.
-/

set_option autoImplicit false

namespace ContentSync.Engine

/-- What became of the fetch of a target. -/
structure Fetched where
  target : FetchTarget
  attempts : Nat
  payload : Except Failure Json

/-- The changes between two payloads of a target. -/
def compare (t : FetchTarget) (old : Option Json) (new : Json) : Comparison :=
  let computed := match t with
    | .gameData segment => Diff.diff old new segment
    | .localization => Diff.diffBundle old new
  match computed with
  | .ok changes => .known changes
  | .error i => .unknown i.failure.message

/-- Takes the time to compare two payloads. -/
def computeChanges (t : FetchTarget) (old : Option Json) (new : Json) : Program Comparison := do
  Program.request .compute
  pure (compare t old new)

/-- Compares a payload with the cached one of the previous version. Where that one is not cached,
everything is new; where it cannot be read, the changes are not known. -/
def compareTarget (p : SyncPolicy) (t : FetchTarget) (old : Option Version) (new : Json) :
    Program Comparison :=
  match old with
  | none => computeChanges t none new
  | some v => do
    match ← bounded p "cache read" .cacheRead (.read (t.key v)) with
    | .ok baseline => computeChanges t baseline new
    | .error f => pure (.unknown f.message)

/-- The comparison that is reported of a payload. A target that is restored is not compared. -/
def comparison (p : SyncPolicy) (r : KindReport) (t : FetchTarget) (new : Json) :
    Program (Option Comparison) :=
  if r.restored then pure none else some <$> compareTarget p t r.oldVersion new

/-- Compares and writes a payload. After a cancellation nothing is written. -/
def writeTarget (p : SyncPolicy) (r : KindReport) (f : Fetched) : Program TargetReport :=
  match f.payload with
  | .error e => pure ⟨f.target, f.attempts, some e, none⟩
  | .ok payload => do
    if ← Program.request .isCancelled then
      pure ⟨f.target, f.attempts, some .cancelled, none⟩
    else
      let comparison ← comparison p r f.target payload
      let written ← bounded p "cache write" .cacheWrite
        (.write (f.target.key r.newVersion) payload (p.lifetime f.target.kind))
      match written with
      | .ok () => pure ⟨f.target, f.attempts, none, comparison⟩
      | .error e => pure ⟨f.target, f.attempts, some e, comparison⟩

def writeTargets (p : SyncPolicy) (r : KindReport) : List Fetched → Program (List TargetReport)
  | [] => pure []
  | f :: rest => do
    let report ← writeTarget p r f
    let others ← writeTargets p r rest
    pure (report :: others)

/-- Removes the entries of a version. One that cannot be removed stays until it expires. -/
def expire (p : SyncPolicy) (v : Version) : List FetchTarget → Program Unit
  | [] => pure ()
  | t :: rest => do
    let _ ← bounded p "cache invalidate" .cacheWrite (.invalidate (t.key v))
    expire p v rest

/-- Removes the entries of the version before, if there was another one. -/
def expirePrevious (p : SyncPolicy) (r : KindReport) : Program Unit :=
  match r.oldVersion with
  | none => pure ()
  | some old => if old = r.newVersion then pure () else expire p old (r.targets.map (·.target))

/-- Commits a kind of which every target was written, unless the epoch is cancelled. -/
def commitKind (p : SyncPolicy) (r : KindReport) : Program KindReport :=
  if !r.fullyWritten then pure r
  else do
    if ← Program.request .isCancelled then pure r
    else
      match ← bounded p "version commit" .persistence (.commit r.kind r.newVersion) with
      | .error f => pure { r with commitError := some f }
      | .ok () =>
        expirePrevious p r
        pure { r with committed := true }

/-- Writes and commits a kind. -/
def processKind (p : SyncPolicy) (fetched : List Fetched) (r : KindReport) :
    Program KindReport := do
  let targets ← writeTargets p r (fetched.filter fun f => f.target.kind = r.kind)
  commitKind p { r with targets := targets }

def processKinds (p : SyncPolicy) (fetched : List Fetched) :
    List KindReport → Program (List KindReport)
  | [] => pure []
  | r :: rest => do
    let report ← processKind p fetched r
    let others ← processKinds p fetched rest
    pure (report :: others)

/-- The second part of an epoch. -/
def writing (p : SyncPolicy) (e : Epoch) (fetched : List Fetched) : Program Epoch := do
  let cancelled ← Program.request .isCancelled
  Program.request (.publish .writing)
  let kinds ← processKinds p fetched e.kinds
  pure { e with kinds := kinds, cancelled := cancelled }

/-- A finished epoch is announced and kept. -/
def announcing (finished : Epoch) : Program Epoch := do
  Program.request (.publish .notifying)
  let _ ← Program.request (.announce (Event.ofEpoch finished))
  Program.request (.remember finished)
  Program.request (.publish .idle)
  pure finished

/-- The last part of an epoch: its outcome is decided, shown, announced and kept. -/
def concluding (e : Epoch) : Program Epoch := do
  let now ← Program.request .clock
  let finished := e.finalize now
  if finished.outcome = some .failure then Program.request (.publish .failed)
  announcing finished

end ContentSync.Engine
