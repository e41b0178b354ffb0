import ContentSync.Binary.Shortest

/-!
# Durations

A duration is a number of nanoseconds, at most `2 ^ 64 - 1` seconds and the nanoseconds below one
more.

* `Duration.times` — a multiple, which stays at the largest duration;
* `Duration.secondsText` — the seconds as shown in messages, a number of 32-bit floating point;
* `Duration.milliseconds` — whole milliseconds, rounded up, in which timers count.
-/

set_option autoImplicit false

namespace ContentSync

open Binary

/-- A length of time. -/
structure Duration where
  nanoseconds : Nat
  deriving DecidableEq, Repr, Inhabited

namespace Duration

def nanosecondsPerSecond : Nat := 1000000000

def seconds (n : Nat) : Duration := ⟨n * nanosecondsPerSecond⟩

def milli (n : Nat) : Duration := ⟨n * 1000000⟩

def zero : Duration := ⟨0⟩

/-- The largest duration. -/
def largest : Duration := ⟨0x10000000000000000 * nanosecondsPerSecond - 1⟩

def wholeSeconds (d : Duration) : Nat := d.nanoseconds / nanosecondsPerSecond

def subsecond (d : Duration) : Nat := d.nanoseconds % nanosecondsPerSecond

def isZero (d : Duration) : Bool := d.nanoseconds == 0

def le (a b : Duration) : Bool := a.nanoseconds ≤ b.nanoseconds

/-- A multiple of a duration, or the largest duration where the multiple exceeds it. -/
def times (d : Duration) (factor : Nat) : Duration :=
  ⟨min (d.nanoseconds * factor) largest.nanoseconds⟩

def atMost (d limit : Duration) : Duration := ⟨min d.nanoseconds limit.nanoseconds⟩

/-- Whole milliseconds, rounded up. -/
def milliseconds (d : Duration) : Nat := (d.nanoseconds + 999999) / 1000000

/-- The seconds as a 32-bit number: the whole seconds plus the quotient of the rest by a billion,
each step rounded. -/
def singleSeconds (d : Duration) : Option Magnitude := do
  let whole ← single.round ⟨d.wholeSeconds, 1⟩
  let rest ← single.round ⟨d.subsecond, 1⟩
  let billion ← single.round ⟨nanosecondsPerSecond, 1⟩
  let part ← single.scale rest ⟨billion.ratio.denominator, billion.ratio.numerator⟩
  let a := whole.ratio
  let b := part.ratio
  single.round ⟨a.numerator * b.denominator + b.numerator * a.denominator,
    a.denominator * b.denominator⟩

/-- The seconds with the fewest digits that read back as the same 32-bit number. -/
def secondsText (d : Duration) : String :=
  match d.singleSeconds with
  | some m => (single.shortest m).positional
  | none => toString d.wholeSeconds

end Duration

end ContentSync
