import ContentSync.Engine.Retry

/-!
# Checking what there is to do

An epoch first asks which versions are advertised and which are committed. A kind whose versions
differ is fetched in full; of a kind whose versions agree, the targets that have gone from the cache
are.

* `check` — the advertised and the committed versions;
* `missing` — the targets of a version that are not in the cache;
* `selectKinds` — the kinds that have something to fetch;
* `checking` — the first part of an epoch.
-/

set_option autoImplicit false

namespace ContentSync.Engine

/-- A target and the version that is fetched for it. -/
abbrev Job := FetchTarget × Version

/-- A kind with something to fetch. -/
structure Selection where
  kind : DataKind
  committed : Option Version
  advertised : Version
  targets : List FetchTarget

namespace Selection

/-- The report of a selected kind, before anything is fetched. -/
def report (s : Selection) : KindReport := .selected s.kind s.committed s.advertised

def jobs (s : Selection) : List Job := s.targets.map (·, s.advertised)

end Selection

/-- What is known after the check. -/
inductive Checked where
  /-- There is nothing more to do than to report. -/
  | stopped (epoch : Epoch)
  /-- There is something to fetch. -/
  | ready (epoch : Epoch) (jobs : List Job)

/-- The advertised versions and the committed ones. -/
def check (p : SyncPolicy) : Program (Except Failure (Metadata × StoredVersions)) := do
  let (_, advertised) ← withRetry p "metadata" .metadata
  match advertised with
  | .error f => pure (.error f)
  | .ok metadata =>
    let committed ← bounded p "read versions" .persistence .versions
    pure (committed.map (metadata, ·))

/-- The targets that are not in the cache. One that cannot be looked up counts as present. -/
def missing (p : SyncPolicy) (v : Version) : List FetchTarget → Program (List FetchTarget)
  | [] => pure []
  | t :: rest => do
    let found ← bounded p "cache exists" .cacheRead (.exist (t.key v))
    let others ← missing p v rest
    pure (match found with
      | .ok false => t :: others
      | _ => others)

/-- What has to be fetched for a kind. -/
def targetsToFetch (p : SyncPolicy) (k : DataKind) (committed : Option Version)
    (advertised : Version) : Program (List FetchTarget) :=
  if committed = some advertised then missing p advertised (p.targets k) else pure (p.targets k)

/-- The kinds that have something to fetch. -/
def selectKinds (p : SyncPolicy) (m : Metadata) (s : StoredVersions) :
    List DataKind → Program (List Selection)
  | [] => pure []
  | k :: rest => do
    let targets ← targetsToFetch p k (s.get k) (m.latest k)
    let others ← selectKinds p m s rest
    pure (if targets.isEmpty then others else ⟨k, s.get k, m.latest k, targets⟩ :: others)

/-- The first part of an epoch. -/
def checking (p : SyncPolicy) (trigger : Trigger) : Program Checked := do
  let now ← Program.request .clock
  let epoch := Epoch.start trigger now
  Program.request (.publish .checking)
  match ← check p with
  | .error .cancelled => pure (.stopped { epoch with cancelled := true })
  | .error f => pure (.stopped { epoch with error := some f })
  | .ok (metadata, committed) =>
    let selections ← selectKinds p metadata committed DataKind.all
    if selections.isEmpty then pure (.stopped epoch)
    else
      pure (.ready { epoch with kinds := selections.map Selection.report }
        (selections.flatMap Selection.jobs))

end ContentSync.Engine
