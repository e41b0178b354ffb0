import ContentSync.Engine.Clockwork
import ContentSync.Engine.Fetching
import ContentSync.Engine.Lookup

/-!
# Epochs on a clock

An epoch checks, fetches several targets at once, and writes. One epoch at a time is let in.

* `Stage` — how far an epoch has come;
* `beginEpoch` — lets an epoch in and runs it until it waits or is over;
* `Stage.prospects` — when it can go on;
* `Stage.resume` — goes on with it.
-/

set_option autoImplicit false

namespace ContentSync.Engine

/-- What epochs and lookups are run with. -/
structure Setup (σ : Type) where
  collaborators : Collaborators σ
  policy : SyncPolicy
  /-- How long the record of a player lives in the cache. -/
  playerLifetime : Duration

/-- An epoch under way. -/
inductive Stage where
  | checking (wait : Wait Checked)
  | fetching (epoch : Epoch) (fetching : Fetching) (slots : List (Nat × Wait Fetched))
  | writing (wait : Wait Epoch)

/-- An epoch after some progress. -/
inductive Standing where
  | ended (epoch : Epoch)
  | under (stage : Stage)

section

variable {σ : Type}

/-- Goes on after some progress of the last parts of an epoch. When it is over the place is free
again. -/
def runConcluding : Env σ × Progress Epoch → Env σ × Standing
  | (e, .finished epoch) => (e.release, .ended epoch)
  | (e, .waiting w) => (e, .under (.writing w))

/-- Runs the last parts of an epoch. -/
def runWriting (s : Setup σ) (cancelled : Bool) (e : Env σ) (program : Program Epoch) :
    Env σ × Standing :=
  runConcluding (advance s.collaborators cancelled e program)

/-- Puts in the result of a job and shows the progress. -/
def finishJob (e : Env σ) (f : Fetching) (number : Nat) (result : Fetched) : Env σ × Fetching :=
  let f := f.finish number result
  (e.publish f.phase, f)

/-- Starts jobs while there is a free slot. -/
def startJobs (s : Setup σ) (cancelled : Bool) (e : Env σ) (f : Fetching)
    (slots : List (Nat × Wait Fetched)) : Env σ × Fetching × List (Nat × Wait Fetched) :=
  match h : f.next? with
  | none => (e, f, slots)
  | some (number, job, g) =>
    have shorter := Fetching.length_waiting_of_next? h
    match advance s.collaborators cancelled e (fetchOne s.policy job) with
    | (e, .finished result) =>
      have : (g.finish number result).waiting.length < f.waiting.length := shorter
      startJobs s cancelled (e.publish (g.finish number result).phase) (g.finish number result)
        slots
    | (e, .waiting w) =>
      startJobs s cancelled e g (slots ++ [(number, w)])
  termination_by f.waiting.length

/-- Starts what can be started, and goes on to writing when every result is there. -/
def runFetching (s : Setup σ) (cancelled : Bool) (e : Env σ) (epoch : Epoch) (f : Fetching)
    (slots : List (Nat × Wait Fetched)) : Env σ × Standing :=
  let (e, f, slots) := startJobs s cancelled e f slots
  if f.isOver then
    runWriting s cancelled e (writing s.policy epoch f.taken >>= concluding)
  else (e, .under (.fetching epoch f slots))

/-- Goes on after some progress of the check. -/
def runChecked (s : Setup σ) (cancelled : Bool) : Env σ × Progress Checked → Env σ × Standing
  | (e, .waiting w) => (e, .under (.checking w))
  | (e, .finished (.stopped epoch)) => runWriting s cancelled e (concluding epoch)
  | (e, .finished (.ready epoch jobs)) =>
    let f := Fetching.create s.policy.maxConcurrentFetches jobs
    runFetching s cancelled (e.publish f.phase) epoch f []

/-- An epoch from its start. -/
def runEpoch (s : Setup σ) (cancelled : Bool) (e : Env σ) (trigger : Trigger) :
    Env σ × Standing :=
  runChecked s cancelled (advance s.collaborators cancelled e (checking s.policy trigger))

/-- Lets an epoch in, unless one is in flight. -/
def beginEpoch (s : Setup σ) (cancelled : Bool) (e : Env σ) (trigger : Trigger) :
    Env σ × Except Failure Standing :=
  match e.orchestrator.accept with
  | .error f => (e, .error f)
  | .ok orchestrator =>
    let (e, standing) := runEpoch s cancelled { e with orchestrator := orchestrator } trigger
    (e, .ok standing)

/-- Goes on with the jobs that can go on, in order. -/
def resumeJobs (s : Setup σ) (cancelled : Bool) (e : Env σ) (f : Fetching) :
    List (Nat × Wait Fetched) → Env σ × Fetching × List (Nat × Wait Fetched)
  | [] => (e, f, [])
  | (number, w) :: rest =>
    match w.resume s.collaborators cancelled e with
    | (e, .finished result) =>
      let (e, f) := finishJob e f number result
      resumeJobs s cancelled e f rest
    | (e, .waiting w) =>
      let (e, f, slots) := resumeJobs s cancelled e f rest
      (e, f, (number, w) :: slots)

namespace Stage

/-- When an epoch can go on: one prospect for everything it waits for. -/
def prospects (cancelled : Bool) (e : Env σ) : Stage → List Prospect
  | checking w => [w.prospect cancelled e]
  | fetching _ _ slots => slots.map fun slot => slot.2.prospect cancelled e
  | writing w => [w.prospect cancelled e]

/-- Goes on with an epoch as far as it can go on. -/
def resume (s : Setup σ) (cancelled : Bool) (e : Env σ) : Stage → Env σ × Standing
  | checking w => runChecked s cancelled (w.resume s.collaborators cancelled e)
  | fetching epoch f slots =>
    let (e, f, slots) := resumeJobs s cancelled e f slots
    runFetching s cancelled e epoch f slots
  | writing w => runConcluding (w.resume s.collaborators cancelled e)

end Stage

/-- When an epoch that may be over can go on. -/
def Standing.prospects (cancelled : Bool) (e : Env σ) : Standing → List Prospect
  | ended _ => []
  | under stage => stage.prospects cancelled e

/-- Goes on with an epoch that may be over. -/
def Standing.resume (s : Setup σ) (cancelled : Bool) (e : Env σ) : Standing → Env σ × Standing
  | ended epoch => (e, .ended epoch)
  | under stage => stage.resume s cancelled e

/-- A lookup from its start. -/
def beginLookup (s : Setup σ) (e : Env σ) (raw : String) :
    Env σ × Progress (Except Failure (Json × Source)) :=
  advance s.collaborators false e (lookup s.playerLifetime raw)

end

end ContentSync.Engine
