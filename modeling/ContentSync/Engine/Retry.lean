import ContentSync.Engine.Program
import ContentSync.Settings.Policy

/-!
# Bounded calls and retries

* `bounded` — a call to the cache or the version store, limited in time;
* `retrying` — a call to the content service, made again after a pause while it fails for a reason
  that may pass and attempts are left.
-/

set_option autoImplicit false

namespace ContentSync.Engine

/-- What is said of a call that took too long. -/
def overdueText (what : String) (limit : Duration) : String :=
  what ++ " exceeded " ++ limit.secondsText ++ "s"

/-- A call within the limit for the stores. Taking longer is a failure of the given class. -/
def bounded (p : SyncPolicy) (what : String) (late : String → Failure) (c : Call) :
    Program (Except Failure c.Answer) := do
  match ← Program.request (.call c p.ioTimeout) with
  | some result => pure result
  | none => pure (.error (late (overdueText what p.ioTimeout)))

/-- The result of an attempt. -/
def settle {α : Type} (p : SyncPolicy) (what : String) : Ending α → Except Failure α
  | .answered result => result
  | .overdue => .error (.timeout (overdueText what p.fetchTimeout))
  | .cancelled => .error .cancelled

/-- Makes an attempt, the one with the given number, and more of them while some are left and the
failure may pass. Gives the number of the last attempt and its result. -/
def retrying (p : SyncPolicy) (what : String) (c : Call) :
    (left attempt : Nat) → Program (Nat × Except Failure c.Answer)
  | 0, attempt => do
    let ending ← Program.request (.attempt c p.fetchTimeout)
    pure (attempt, settle p what ending)
  | left + 1, attempt => do
    let ending ← Program.request (.attempt c p.fetchTimeout)
    match settle p what ending with
    | .ok answer => pure (attempt, .ok answer)
    | .error f =>
      if f.transient then do
        let cut ← Program.request (.pause (p.retry.delay attempt))
        if cut then pure (attempt, .error .cancelled)
        else retrying p what c left (attempt + 1)
      else pure (attempt, .error f)

/-- A call with as many attempts as the policy allows, and at least one. -/
def withRetry (p : SyncPolicy) (what : String) (c : Call) :
    Program (Nat × Except Failure c.Answer) :=
  retrying p what c (p.retry.maxAttempts - 1) 1

end ContentSync.Engine
