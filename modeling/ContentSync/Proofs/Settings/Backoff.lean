import ContentSync.Settings.Retry
import Mathlib.Algebra.Order.Ring.Nat

/-!
# Delays that double

The delay before a retry is meant to be the base, doubled with each retry, up to the largest delay. The
computation multiplies by a factor that cannot grow beyond `Retry.largestFactor`, so it is exact as
long as the largest delay is reached by then, and stops short of it otherwise.

* `Retry.doubled` — the delay as it is meant;
* `Retry.delay_nanoseconds` — the bound on durations does not show under the largest delay;
* `Retry.delay_eq_doubled_iff` — exactly when the delay is as it is meant;
* `Retry.delay_mono` — delays never get shorter;
* `Retry.backoff_saturates` — what all delays are;
* `Retry.backoff_falls_short` — a largest delay that is never reached.
-/

set_option autoImplicit false

namespace ContentSync.Retry

variable {r : Retry} {retry : Nat}

/-- The base, doubled with each retry after the first, up to the largest delay, in nanoseconds. -/
def doubled (r : Retry) (retry : Nat) : Nat :=
  min (r.baseDelay.nanoseconds * 2 ^ (retry - 1)) r.maxDelay.nanoseconds

/-! ## The factor -/

theorem factor_eq_pow {doublings : Nat} (h : doublings < 32) : factor doublings = 2 ^ doublings :=
  if_pos h

theorem factor_eq_largest {doublings : Nat} (h : 32 ≤ doublings) : factor doublings = largestFactor :=
  if_neg (by omega)

/-- A power that is not the factor is larger than every factor. -/
theorem largestFactor_lt_pow {doublings : Nat} (h : 32 ≤ doublings) :
    largestFactor < 2 ^ doublings := by
  have hpow : 2 ^ 32 ≤ 2 ^ doublings := Nat.pow_le_pow_right (by omega) h
  have hlargest : largestFactor < 2 ^ 32 := by decide
  omega

theorem factor_le_largest (doublings : Nat) : factor doublings ≤ largestFactor := by
  by_cases h : doublings < 32
  · have hpow : 2 ^ doublings ≤ 2 ^ 31 := Nat.pow_le_pow_right (by omega) (by omega)
    have hlargest : 2 ^ 31 ≤ largestFactor := by decide
    rw [factor_eq_pow h]
    omega
  · exact Nat.le_of_eq (factor_eq_largest (by omega))

theorem factor_mono {a b : Nat} (h : a ≤ b) : factor a ≤ factor b := by
  by_cases hb : b < 32
  · rw [factor_eq_pow hb, factor_eq_pow (by omega)]
    exact Nat.pow_le_pow_right (by omega) h
  · rw [factor_eq_largest (show 32 ≤ b by omega)]
    exact factor_le_largest a

/-! ## The delay -/

/-- **The bound on durations does not show**, because the largest delay is a duration. -/
theorem delay_nanoseconds (hmax : r.maxDelay.le .largest = true) :
    (r.delay retry).nanoseconds =
      min (r.baseDelay.nanoseconds * factor (retry - 1)) r.maxDelay.nanoseconds := by
  have hle : r.maxDelay.nanoseconds ≤ Duration.largest.nanoseconds := by
    simpa [Duration.le] using hmax
  show min (min (r.baseDelay.nanoseconds * factor (retry - 1)) Duration.largest.nanoseconds)
    r.maxDelay.nanoseconds = _
  rw [Nat.min_assoc, Nat.min_eq_right hle]

/-- Up to the thirty-second retry the factor is exact. -/
theorem delay_eq_doubled_of_le (hmax : r.maxDelay.le .largest = true) (h : retry ≤ 32) :
    (r.delay retry).nanoseconds = r.doubled retry := by
  rw [delay_nanoseconds hmax, factor_eq_pow (by omega)]
  rfl

/-- From the thirty-third retry on the delay stays the same. -/
theorem delay_of_lt (hmax : r.maxDelay.le .largest = true) (h : 32 < retry) :
    (r.delay retry).nanoseconds =
      min (r.baseDelay.nanoseconds * largestFactor) r.maxDelay.nanoseconds := by
  rw [delay_nanoseconds hmax, factor_eq_largest (by omega)]

/-- **The delay is as it is meant** in early retries, when the largest factor reaches the largest
delay, and when there is no delay at all, and never otherwise. -/
theorem delay_eq_doubled_iff (hmax : r.maxDelay.le .largest = true) :
    (r.delay retry).nanoseconds = r.doubled retry ↔
      retry ≤ 32 ∨ r.maxDelay.nanoseconds ≤ r.baseDelay.nanoseconds * largestFactor ∨
        r.baseDelay.nanoseconds = 0 := by
  constructor
  · intro heq
    by_contra hnot
    simp only [not_or, Nat.not_le] at hnot
    obtain ⟨hlate, hshort, hbase⟩ := hnot
    have hpow : r.baseDelay.nanoseconds * largestFactor <
        r.baseDelay.nanoseconds * 2 ^ (retry - 1) :=
      Nat.mul_lt_mul_of_pos_left (largestFactor_lt_pow (by omega)) (by omega)
    rw [delay_of_lt hmax hlate, doubled] at heq
    omega
  · rintro (hearly | hreached | hnone)
    · exact delay_eq_doubled_of_le hmax hearly
    · by_cases hearly : retry ≤ 32
      · exact delay_eq_doubled_of_le hmax hearly
      · have hpow : r.baseDelay.nanoseconds * largestFactor ≤
            r.baseDelay.nanoseconds * 2 ^ (retry - 1) :=
          Nat.mul_le_mul_left _ (Nat.le_of_lt (largestFactor_lt_pow (by omega)))
        rw [delay_of_lt hmax (by omega), doubled]
        omega
    · rw [delay_nanoseconds hmax, doubled, hnone, Nat.zero_mul, Nat.zero_mul]

theorem delay_mono {a b : Nat} (hmax : r.maxDelay.le .largest = true) (h : a ≤ b) :
    (r.delay a).nanoseconds ≤ (r.delay b).nanoseconds := by
  have hfactor : factor (a - 1) ≤ factor (b - 1) := factor_mono (by omega)
  have hproduct := Nat.mul_le_mul_left r.baseDelay.nanoseconds hfactor
  rw [delay_nanoseconds hmax, delay_nanoseconds hmax]
  omega

/-- Without the largest delay no delay exceeds the largest multiple of the base. -/
theorem delay_le_largest_multiple (hmax : r.maxDelay.le .largest = true) :
    (r.delay retry).nanoseconds ≤ r.baseDelay.nanoseconds * largestFactor := by
  have hproduct := Nat.mul_le_mul_left r.baseDelay.nanoseconds (factor_le_largest (retry - 1))
  rw [delay_nanoseconds hmax]
  omega

/-- **Delays double until the factor is as large as it can be.** For any base and any largest delay:
they never get shorter and never exceed the largest delay. They are exactly the base times a power of
two, up to the largest delay, if and only if this is an early retry, or the largest multiple of the
base reaches the largest delay, or the base is zero. If it does reach it, so do all delays from the
thirty-third retry on; if not, no delay does, and from then on all are that multiple. -/
theorem backoff_saturates (r : Retry) (hmax : r.maxDelay.le .largest = true) :
    (∀ a b, a ≤ b → (r.delay a).nanoseconds ≤ (r.delay b).nanoseconds) ∧
    (∀ retry, (r.delay retry).nanoseconds ≤ r.maxDelay.nanoseconds) ∧
    (∀ retry, (r.delay retry).nanoseconds = r.doubled retry ↔
      retry ≤ 32 ∨ r.maxDelay.nanoseconds ≤ r.baseDelay.nanoseconds * largestFactor ∨
        r.baseDelay.nanoseconds = 0) ∧
    (r.maxDelay.nanoseconds ≤ r.baseDelay.nanoseconds * largestFactor →
      ∀ retry, 32 < retry → r.delay retry = r.maxDelay) ∧
    (r.baseDelay.nanoseconds * largestFactor < r.maxDelay.nanoseconds →
      (∀ retry, (r.delay retry).nanoseconds < r.maxDelay.nanoseconds) ∧
      ∀ retry, 32 < retry →
        (r.delay retry).nanoseconds = r.baseDelay.nanoseconds * largestFactor) := by
  refine ⟨?_, ?_, ?_, ?_, ?_⟩
  · intro a b hab
    exact delay_mono hmax hab
  · intro retry
    exact delay_le_maxDelay r retry
  · intro retry
    exact delay_eq_doubled_iff hmax
  · intro hreached retry hlate
    have heq : (r.delay retry).nanoseconds = r.maxDelay.nanoseconds := by
      rw [delay_of_lt hmax hlate]
      exact Nat.min_eq_right hreached
    exact congrArg Duration.mk heq
  · intro hshort
    refine ⟨fun retry => ?_, fun retry hlate => ?_⟩
    · have hle : (r.delay retry).nanoseconds ≤ _ := delay_le_largest_multiple hmax
      omega
    · rw [delay_of_lt hmax hlate]
      omega

/-- A base of a millisecond and a largest delay of five million seconds. -/
def patient : Retry := ⟨40, .milli 1, .milli 5000000000⟩

/-- With the usual delays the largest one is reached; with patient ones none is, although the base is
not zero. -/
theorem backoff_saturates_default :
    (default.maxDelay.le .largest = true ∧ ∀ retry, 32 < retry → default.delay retry = .seconds 10) ∧
    (patient.maxDelay.le .largest = true ∧
      ∀ retry, (patient.delay retry).nanoseconds < patient.maxDelay.nanoseconds) := by
  have hdefault : default.maxDelay.le .largest = true := by decide
  have hpatient : patient.maxDelay.le .largest = true := by decide
  obtain ⟨-, -, -, hreaches, -⟩ := backoff_saturates default hdefault
  obtain ⟨-, -, -, -, hshort⟩ := backoff_saturates patient hpatient
  exact ⟨⟨hdefault, hreaches (by decide)⟩, hpatient, (hshort (by decide)).1⟩

/-- **Not every delay is the base times a power of two up to the largest delay.** These are valid
settings, but the thirty-third delay is a millisecond too short, and the largest one is never
reached. -/
theorem backoff_falls_short :
    patient.check = .ok () ∧ (patient.delay 33).nanoseconds = 4294967295000000 ∧
      patient.doubled 33 = 4294967296000000 ∧ patient.doubled 34 = patient.maxDelay.nanoseconds ∧
      patient.delay 0xFFFFFFFF ≠ patient.maxDelay := by
  decide

end ContentSync.Retry
