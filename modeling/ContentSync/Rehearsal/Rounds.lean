import ContentSync.Rehearsal.Play

/-!
# Rounds of a rehearsal

A rehearsal goes on in rounds. In each of them the client goes as far as it can, and then every
errand does. When nobody can go on, computations end; when there are none, time passes until
somebody can.

Steps side by side take turns in the order in which they were given. Only when there are many of
them are those who can go on called one by one, in the order of their ranks.

* `Doing.prospects` — when a client can go on;
* `Doing.resume` — goes on with what a client is doing;
* `Play.tick` — one round;
* `perform` — takes steps one after another.
-/

set_option autoImplicit false

namespace ContentSync.Rehearsal

open Engine

def Timer.prospect (p : Play) (t : Timer) : Prospect := .ofTime p.now t.due t.sequence

mutual

/-- When a client can go on: one prospect for everything it waits for. -/
def Doing.prospects (p : Play) : Doing → List Prospect
  | .scheduled _ timer => [timer.prospect p]
  | .sleeping timer => [timer.prospect p]
  | .running cancelled timer standing =>
    (timer.toList.map fun t => t.prospect p) ++
      standing.toOption.toList.flatMap fun s => s.prospects cancelled p.env
  | .triggering stage => stage.prospects p.stopped p.env
  | .looking w => [w.prospect false p.env]
  | .awaitingRecord _ patience w =>
    w.prospect false p.env :: patience.toList.map fun t => t.prospect p
  | .awaitingErrand _ patience errand =>
    match p.errands[errand]?.bind Errand.result? with
    | some _ => [.now 0]
    | none => patience.toList.map fun t => t.prospect p
  | .gathering children => allProspects p children
  | .ended _ _ => []

def allProspects (p : Play) : List Doing → List Prospect
  | [] => []
  | child :: rest => child.prospects p ++ allProspects p rest

end

namespace Play

/-- How many steps side by side are not too many to take turns. -/
def crowd : Nat := 30

/-- Who takes a turn among steps side by side, in order. -/
def turns (p : Play) (children : List Doing) : List Nat :=
  if children.length ≤ crowd then List.range children.length
  else
    let called := children.zipIdx.filterMap fun child =>
      (Prospect.first? (child.1.prospects p)).map fun rank => (rank, child.2)
    (called.mergeSort fun a b => a.1 ≤ b.1).map fun c => c.2

/-- One of the steps side by side takes its turn. -/
def takeTurn (ways : List (Play → Play × Doing)) (state : Play × List Doing) (i : Nat) :
    Play × List Doing :=
  match ways[i]? with
  | some go =>
    let (p, child) := go state.1
    (p, state.2.set i child)
  | none => state

/-- Steps side by side take their turns. How each of them goes on is given. -/
def takeTurns (p : Play) (children : List Doing) (ways : List (Play → Play × Doing)) :
    Play × Doing :=
  let (p, children) := (p.turns children).foldl (takeTurn ways) (p, children)
  p.afterChildren children

/-- Goes on with an epoch that has been let in. -/
def resumeEpoch (p : Play) (cancelled : Bool) :
    Except Failure Standing → Play × Except Failure Standing
  | .error f => (p, .error f)
  | .ok standing =>
    let (e, standing) := standing.resume p.setup cancelled p.env
    (p.setEnv e, .ok standing)

end Play

mutual

/-- Goes on with what a client is doing, as far as it can. -/
def Doing.resume : Doing → Play → Play × Doing
  | .scheduled step timer => fun p =>
    if p.rings timer then p.begin step else (p, .scheduled step timer)
  | .sleeping timer => fun p => if p.rings timer then p.finish .nothing else (p, .sleeping timer)
  | .running cancelled timer standing => fun p =>
    let cancelled := cancelled || timer.any p.rings
    let (q, standing) := p.resumeEpoch cancelled standing
    q.afterEpoch cancelled (timer.filter fun t => !p.rings t) standing
  | .triggering stage => fun p =>
    let (p, standing) := p.resumeEpoch p.stopped (.ok (.under stage))
    p.afterTriggered standing
  | .looking w => fun p =>
    let (e, progress) := w.resume p.setup.collaborators false p.env
    (p.setEnv e).afterLookup progress
  | .awaitingRecord method patience w => fun p =>
    let (e, progress) := w.resume p.setup.collaborators false p.env
    (p.setEnv e).afterRecord method patience progress
  | .awaitingErrand method patience errand => fun p => p.afterErrand method patience errand
  | .gathering children => fun p => p.takeTurns children (resumptions children)
  | .ended time shown => fun p => (p, .ended time shown)

/-- How each of several clients goes on. -/
def resumptions : List Doing → List (Play → Play × Doing)
  | [] => []
  | child :: rest => child.resume :: resumptions rest

end

namespace Play

/-- An errand goes on as far as it can. -/
def runErrand (p : Play) (errand : Nat) : Play :=
  let put (q : Play) (standing : Except Failure Standing) : Play :=
    { q with errands := q.errands.set errand (.begun standing) }
  match p.errands[errand]? with
  | none => p
  | some .asked =>
    let (e, standing) := beginEpoch p.setup p.stopped p.env .manual
    put (p.setEnv e) standing
  | some (.begun standing) =>
    let (p, standing) := p.resumeEpoch p.stopped standing
    put p standing

/-- All errands go on as far as they can. -/
def runErrands (p : Play) : Play := (List.range p.errands.length).foldl runErrand p

/-- When an errand can go on. -/
def errandProspects (p : Play) : Errand → List Prospect
  | .begun (.ok standing) => standing.prospects p.stopped p.env
  | _ => []

/-- The start of the next round: at once if anybody can go on then, or else when computations end,
or else at the first time somebody waits for. -/
def nextRound (p : Play) (doing : Doing) : Option Play :=
  let next := { p.env with round := p.env.round + 1, quiet := false }
  let p := p.setEnv next
  let prospects := doing.prospects p ++ p.errands.flatMap p.errandProspects
  if prospects.any Prospect.isNow then some p
  else if prospects.any (· matches .lull) then some (p.setEnv { next with quiet := true })
  else ((prospects.filterMap Prospect.time?).min?).map fun time =>
    p.setEnv { next with now := time }

/-- Ends a round, in which the client has gone as far as it could, and begins the next one. -/
def tick (p : Play) (doing : Doing) : Option (Play × Doing) :=
  (p.runErrands.nextRound doing).map doing.resume

/-- Goes on until a client has ended its step, for a number of rounds at most. -/
def runUntilEnded : Nat → Play → Doing → Play × Doing
  | 0, p, doing => (p, doing)
  | fuel + 1, p, doing =>
    match doing with
    | .ended .. => (p, doing)
    | _ =>
      match p.tick doing with
      | some (p, doing) => runUntilEnded fuel p doing
      | none => (p, doing)

end Play

/-- What a step leaves behind. -/
structure Record where
  time : Nat
  shown : Shown
  log : List LogEntry

/-- Takes a step to its end. -/
def Play.take (p : Play) (fuel : Nat) (step : Step) : Record × Play :=
  let (p, doing) := p.begin step
  let (p, doing) := p.runUntilEnded fuel doing
  let shown := match doing with
    | .ended _ shown => shown
    | _ => .nothing
  let log := sortFetches p.backstage.log.reverse
  (⟨p.now, shown, log⟩, p.setBackstage { p.backstage with log := [] })

/-- How many rounds the steps of a script can take: each step starts at most one epoch, which waits
three times for every attempt at one of its targets, and at most twice for everything else it
does. -/
def roundLimit (policy : SyncPolicy) (steps : Nat) : Nat :=
  (steps + 1) * (24 * policy.retry.maxAttempts + 128)

/-- Takes steps one after another. -/
def perform (p : Play) (fuel : Nat) : List Step → List Record
  | [] => []
  | step :: rest =>
    let (record, p) := p.take fuel step
    record :: perform p fuel rest

end ContentSync.Rehearsal
