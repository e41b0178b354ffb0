import ContentSync.Engine.Stage
import ContentSync.Rehearsal.Step

/-!
# Rehearsals

A play is a rehearsal under way. An epoch that the server is asked for runs on its own, as an
errand, and goes on even when nobody waits for it any more; everything else is done by the client
itself.

* `Errand` — an epoch that runs on its own;
* `Doing` — what a client is doing;
* `Play` — a rehearsal under way;
* `Play.begin` — a client begins a step.
-/

set_option autoImplicit false

namespace ContentSync.Rehearsal

open Engine

/-- An epoch that runs on its own. -/
inductive Errand where
  | asked
  | begun (standing : Except Failure Standing)

/-- The result of an epoch that is refused or over. -/
def resultOf? : Except Failure Standing → Option (Except Failure Epoch)
  | .error f => some (.error f)
  | .ok (.ended epoch) => some (.ok epoch)
  | .ok (.under _) => none

def Errand.result? : Errand → Option (Except Failure Epoch)
  | asked => none
  | begun standing => resultOf? standing

/-- A time at which somebody goes on, and a number that tells when they began to wait for it. -/
structure Timer where
  due : Nat
  sequence : Nat

/-- What a client is doing. -/
inductive Doing where
  /-- The client waits for the time of a step. -/
  | scheduled (step : Step) (timer : Timer)
  | sleeping (timer : Timer)
  /-- The client runs an epoch, and waits until the time has come at which it is cancelled. -/
  | running (cancelled : Bool) (timer : Option Timer) (standing : Except Failure Standing)
  /-- The client runs an epoch that is cancelled when the application is shut down. -/
  | triggering (stage : Stage)
  | looking (wait : Wait (Except Failure (Json × Source)))
  /-- The client waits for the server to look up a record, until its patience ends. -/
  | awaitingRecord (method : String) (patience : Option Timer)
      (wait : Wait (Except Failure (Json × Source)))
  /-- The client waits for an errand of the server, until its patience ends. -/
  | awaitingErrand (method : String) (patience : Option Timer) (errand : Nat)
  | gathering (children : List Doing)
  | ended (time : Nat) (shown : Shown)

def Doing.ended? : Doing → Option (Nat × Shown)
  | ended time shown => some (time, shown)
  | _ => none

/-- A rehearsal under way. -/
structure Play where
  setup : Setup Backstage
  env : Env Backstage
  errands : List Errand
  /-- The application has been shut down, which cancels its epochs. -/
  stopped : Bool
  /-- How many events of each recorder have been shown. -/
  reported : Nat

namespace Play

def create (policy : SyncPolicy) (playerLifetime : Duration) (stored : StoredVersions)
    (plainCache : Bool) (sinks : List Sink) : Play where
  setup := ⟨collaborators, policy, playerLifetime⟩
  env := ⟨0, 0, false, 0, .create sinks, .create stored plainCache⟩
  errands := []
  stopped := false
  reported := 0

def now (p : Play) : Nat := p.env.now

def orchestrator (p : Play) : Orchestrator := p.env.orchestrator

def backstage (p : Play) : Backstage := p.env.outside

def setEnv (p : Play) (e : Env Backstage) : Play := { p with env := e }

def setBackstage (p : Play) (b : Backstage) : Play := p.setEnv { p.env with outside := b }

def setMailbox (p : Play) (m : Mailbox) : Play :=
  p.setEnv { p.env with orchestrator := { p.orchestrator with mailbox := m } }

/-- A timer that rings after some milliseconds. -/
def timer (p : Play) (length : Nat) : Timer × Play :=
  let (sequence, e) := p.env.number
  (⟨p.now + length, sequence⟩, p.setEnv e)

/-- A timer that may not be there. -/
def timer? (p : Play) : Option Nat → Option Timer × Play
  | none => (none, p)
  | some length =>
    let (timer, p) := p.timer length
    (some timer, p)

def rings (p : Play) (t : Timer) : Bool := t.due ≤ p.now

/-- A client ends its step. -/
def finish (p : Play) (shown : Shown) : Play × Doing := (p, .ended p.now shown)

/-- The epoch that has ended, and what can be seen then. -/
def epochView (p : Play) (r : Except Failure Epoch) : Except Failure EpochView :=
  r.map fun epoch => ⟨epoch, p.backstage.versions, p.orchestrator.phase, p.orchestrator.inFlight⟩

def statusView (p : Play) : StatusView where
  stored := p.backstage.versions
  everCached := p.backstage.everCached.mergeSort fun a b => a.text ≤ b.text
  cacheSize := p.backstage.cache.size
  phase := p.orchestrator.phase
  running := p.orchestrator.inFlight
  peak := p.backstage.peak
  last := p.orchestrator.last

/-- The sinks that keep what they are handed. -/
def recorders (m : Mailbox) : List Sink := m.sinks.filter fun s => s.name == "recorder"

/-- Delivers what is queued and shows what the recorders have been handed since the last time. -/
def deliver (p : Play) : Play × Doing :=
  let mailbox := p.orchestrator.mailbox
  let (count, mailbox) :=
    if mailbox.listening then
      let (n, m) := mailbox.dispatch
      (some n, m)
    else (none, mailbox)
  let handed := (recorders mailbox).map fun s => s.handed
  let seen := handed.map fun events => events.drop p.reported
  let reported := (handed.map fun events => events.length).foldl max p.reported
  { p.setMailbox mailbox with reported := reported }.finish (.events count seen)

/-! ## After some progress -/

/-- A client that runs an epoch, after some progress of it. -/
def afterEpoch (p : Play) (cancelled : Bool) (timer : Option Timer)
    (standing : Except Failure Standing) : Play × Doing :=
  match timer, resultOf? standing with
  | none, some result => p.finish (.epoch (p.epochView result))
  | _, _ => (p, .running cancelled timer standing)

/-- A client that runs an epoch of the application, after some progress of it. -/
def afterTriggered (p : Play) : Except Failure Standing → Play × Doing
  | .ok (.under stage) => (p, .triggering stage)
  | _ => p.finish (.last p.orchestrator.last)

/-- A client that looks up a record, after some progress. -/
def afterLookup (p : Play) : Progress (Except Failure (Json × Source)) → Play × Doing
  | .finished result => p.finish (.player result)
  | .waiting w => (p, .looking w)

/-- A client for whom the server looks up a record, after some progress. -/
def afterRecord (p : Play) (method : String) (patience : Option Timer) :
    Progress (Except Failure (Json × Source)) → Play × Doing
  | .finished result => p.finish (.response ((Response.ofLookup result).forMethod method))
  | .waiting w =>
    if patience.any p.rings then
      (p.setEnv (w.abandon p.setup.collaborators p.env)).finish .gaveUp
    else (p, .awaitingRecord method patience w)

/-- A client that waits for an errand, after a while. -/
def afterErrand (p : Play) (method : String) (patience : Option Timer) (errand : Nat) :
    Play × Doing :=
  match p.errands[errand]?.bind Errand.result? with
  | some result => p.finish (.response ((Response.ofEpoch result).forMethod method))
  | none =>
    if patience.any p.rings then p.finish .gaveUp
    else (p, .awaitingErrand method patience errand)

/-- A client whose steps are taken side by side, after some progress of them. -/
def afterChildren (p : Play) (children : List Doing) : Play × Doing :=
  match children.mapM Doing.ended? with
  | some shown => p.finish (.several shown)
  | none => (p, .gathering children)

/-! ## Steps -/

/-- A client sends a request to the server. -/
def request (p : Play) (method address : String) (giveUpAfter : Option Nat) : Play × Doing :=
  let answer (r : Response) : Play × Doing := p.finish (.response (r.forMethod method))
  match Route.of method address with
  | .status => answer (.ok p.orchestrator.status)
  | .unreadablePlayer => answer .unreadablePlayer
  | .unknown => answer .notFound
  | .notAllowed allowed => answer (.notAllowed allowed)
  | .player code =>
    let (e, progress) := beginLookup p.setup p.env code
    let (patience, p) := (p.setEnv e).timer? giveUpAfter
    p.afterRecord method patience progress
  | .sync =>
    let errand := p.errands.length
    let (patience, p) := { p with errands := p.errands ++ [Errand.asked] }.timer? giveUpAfter
    p.afterErrand method patience errand

/-- A client begins a step that is not made of others. -/
def beginOne (p : Play) (step : Step) : Play × Doing :=
  let b := p.backstage
  let change (b : Backstage) : Play × Doing := (p.setBackstage b).finish .nothing
  match step with
  | .advertise metadata => change { b with metadata := some metadata }
  | .publish v release => change { b with releases := Backstage.assign v release b.releases }
  | .publishRaw t v payload => change { b with raw := Backstage.assign (t, v) payload b.raw }
  | .playerRecord code record => change { b with players := Backstage.assign code record b.players }
  | .failNext o answers =>
    let s := b.script o
    change (b.setScript o { s with queue := s.queue ++ answers })
  | .failAlways o f => change (b.setScript o { b.script o with always := some f })
  | .heal o => change (b.setScript o .usual)
  | .delay o length => change (b.setScript o { b.script o with delay := length })
  | .fault method key scripted =>
    let name := match key with
      | some key => method ++ " " ++ key
      | none => method
    change { b with
      faults := match scripted with
        | some s => Backstage.assign name s b.faults
        | none => Backstage.unassign name b.faults }
  | .seed k payload lifetime => change (b.store p.now k payload lifetime)
  | .seedRelease v release =>
    change (Segment.all.foldl (fun b s =>
      b.store p.now (.ofGameData v s) (Backstage.segmentPayload release s) (.seconds 3600)) b)
  | .evict k => change { b with cache := b.cache.invalidate k }
  | .peek k =>
    let (found, cache) := b.cache.read (Backstage.instant p.now) k
    (p.setBackstage { b with cache := cache }).finish (.payload found)
  | .purge =>
    let (removed, cache) := b.cache.purge (Backstage.instant p.now)
    (p.setBackstage { b with cache := cache }).finish (.count removed)
  | .sleep length =>
    if length.milliseconds = 0 then p.finish .nothing
    else
      let (timer, p) := p.timer length.milliseconds
      (p, .sleeping timer)
  | .shutdown => { p with stopped := true }.finish .nothing
  | .dropDispatcher => (p.setMailbox p.orchestrator.mailbox.stopListening).finish .nothing
  | .epoch trigger cancelAt =>
    let cancelled := cancelAt == some 0
    let (e, standing) := beginEpoch p.setup cancelled p.env trigger
    let (timer, p) := (p.setEnv e).timer? (cancelAt.filter (· ≠ 0))
    p.afterEpoch cancelled timer standing
  | .triggered trigger =>
    if p.stopped then p.finish (.last p.orchestrator.last)
    else
      let (e, standing) := beginEpoch p.setup p.stopped p.env trigger
      (p.setEnv e).afterTriggered standing
  | .player code =>
    let (e, progress) := beginLookup p.setup p.env code
    (p.setEnv e).afterLookup progress
  | .http method address giveUpAfter => p.request method address giveUpAfter
  | .events => p.deliver
  | .status => p.finish (.status p.statusView)
  | .side _ => p.finish .nothing

mutual

/-- A client begins a step. -/
def begin (p : Play) : Step → Play × Doing
  | .side steps =>
    let (p, children) := beginAll p steps
    p.afterChildren children
  | step => p.beginOne step

/-- A client begins steps side by side. -/
def beginAll (p : Play) : List (Nat × Step) → Play × List Doing
  | [] => (p, [])
  | s :: rest =>
    let (p, child) := beginAfter p s
    let (p, children) := beginAll p rest
    (p, child :: children)

/-- A client begins a step, at once or when its time has come. -/
def beginAfter (p : Play) : Nat × Step → Play × Doing
  | (0, step) => begin p step
  | (length, step) =>
    let (timer, p) := p.timer length
    (p, .scheduled step timer)

end

end Play

end ContentSync.Rehearsal
