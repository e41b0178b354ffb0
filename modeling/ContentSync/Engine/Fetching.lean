import ContentSync.Engine.Checking
import ContentSync.Engine.Writing

/-!
# Fetching several targets at once

The jobs of an epoch are started in order, up to a number of them at a time. Results are taken in
the order of the jobs, so a job that has ended keeps its slot until every earlier one has ended too.

* `fetchOne` — the fetch of one target;
* `Fetching.next?` — starts the next job while a slot is free;
* `Fetching.finish` — puts in the result of a job and takes what can be taken;
* `Fetching.isOver` — every result has been taken.
-/

set_option autoImplicit false

namespace ContentSync.Engine

/-- The fetch of one target, with retries. -/
def fetchOne (p : SyncPolicy) (job : Job) : Program Fetched := do
  let (attempts, payload) ← withRetry p job.1.label (.fetch job.1 job.2 p.unzip)
  pure ⟨job.1, attempts, payload⟩

/-- A job that has been started: its number and, once it has ended, its result. -/
structure Slot where
  number : Nat
  result : Option Fetched

/-- The jobs of an epoch and how far they have come. -/
structure Fetching where
  limit : Nat
  /-- Not started yet. -/
  waiting : List Job
  /-- Started, and not taken yet. -/
  held : List Slot
  /-- The results so far, in the order of the jobs. -/
  taken : List Fetched
  /-- How many jobs have ended. -/
  completed : Nat
  total : Nat

namespace Fetching

/-- Nothing is started yet. At least one job may run at a time. -/
def create (limit : Nat) (jobs : List Job) : Fetching := ⟨max limit 1, jobs, [], [], 0, jobs.length⟩

/-- How many jobs have been started. -/
def started (f : Fetching) : Nat := f.taken.length + f.held.length

/-- Starts the next job, if there is one and a slot is free. -/
def next? (f : Fetching) : Option (Nat × Job × Fetching) :=
  match f.waiting with
  | [] => none
  | job :: rest =>
    if f.held.length < f.limit then
      some (f.started, job, { f with waiting := rest, held := f.held ++ [⟨f.started, none⟩] })
    else none

/-- The results at the front, up to the first job that has not ended, and the slots after them. -/
def endedFront : List Slot → List Fetched × List Slot
  | [] => ([], [])
  | s :: rest =>
    match s.result with
    | none => ([], s :: rest)
    | some r => (r :: (endedFront rest).1, (endedFront rest).2)

/-- Puts in the result of the job with the given number. -/
def finish (f : Fetching) (number : Nat) (result : Fetched) : Fetching :=
  let held := f.held.map fun s => if s.number = number then { s with result := some result } else s
  let front := endedFront held
  { f with held := front.2, taken := f.taken ++ front.1, completed := f.completed + 1 }

def isOver (f : Fetching) : Bool := f.waiting.isEmpty && f.held.isEmpty

/-- The phase that is shown. -/
def phase (f : Fetching) : Phase := .fetching f.completed f.total

theorem waiting_finish (f : Fetching) (number : Nat) (result : Fetched) :
    (f.finish number result).waiting = f.waiting := rfl

theorem length_waiting_of_next? {f g : Fetching} {number : Nat} {job : Job}
    (h : f.next? = some (number, job, g)) : g.waiting.length < f.waiting.length := by
  unfold next? at h
  split at h
  · cases h
  · rename_i hw
    split at h
    · cases h; simp [hw]
    · cases h

end Fetching

end ContentSync.Engine
