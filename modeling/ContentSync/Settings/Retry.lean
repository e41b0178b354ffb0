import ContentSync.Settings.Invalid
import ContentSync.Time.Duration

/-!
# Retries

A call that fails for a reason that may pass is made again after a delay that doubles each time.

* `Retry.delay` — the delay before a retry, the base doubled with each retry up to the largest
  delay;
* `Retry.check` — there is at least one attempt and the base does not exceed the largest delay.
-/

set_option autoImplicit false

namespace ContentSync

/-- How often a call is made and how long the pauses are. -/
structure Retry where
  /-- All attempts, the first one included. -/
  maxAttempts : Nat
  baseDelay : Duration
  maxDelay : Duration
  deriving DecidableEq, Repr

namespace Retry

def default : Retry := ⟨3, .milli 500, .seconds 10⟩

/-- The largest factor by which the base delay is multiplied. -/
def largestFactor : Nat := 0xFFFFFFFF

/-- `2 ^ doublings`, or the largest factor where the power exceeds it. -/
def factor (doublings : Nat) : Nat :=
  if doublings < 32 then Nat.pow 2 doublings else largestFactor

/-- The delay before the retry with the given number, counted from one. -/
def delay (r : Retry) (retry : Nat) : Duration :=
  (r.baseDelay.times (factor (retry - 1))).atMost r.maxDelay

def check (r : Retry) : Except Invalid Unit := do
  demand (r.maxAttempts != 0) .attempts
  demand (r.baseDelay.le r.maxDelay) .delays

theorem delay_le_maxDelay (r : Retry) (retry : Nat) :
    (r.delay retry).nanoseconds ≤ r.maxDelay.nanoseconds :=
  Nat.min_le_right _ _

end Retry

end ContentSync
