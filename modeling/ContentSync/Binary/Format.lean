/-!
# Binary floating point, in exact arithmetic

A floating-point format keeps a fixed number of significant bits and a bounded range of exponents.
Everything here is arithmetic on naturals, so each rounding is a definition one can reason about.

* `Format.round` — the number of the format nearest to a quotient, a tie going to the even
  significand, and `none` beyond the largest number;
* `Format.ofDecimal?` — the number written as `digits · 10 ^ exponent`, read the way JSON numbers
  are read here: the digits are rounded first and then scaled by a rounded power of ten.
-/

set_option autoImplicit false

namespace ContentSync.Binary

/-- The number `significand · 2 ^ exponent`, without its sign. -/
structure Magnitude where
  significand : Nat
  exponent : Int
  deriving DecidableEq, Repr, Inhabited

/-- A binary format: significant bits, and the exponents of the last place of its smallest and of
its largest numbers. -/
structure Format where
  precision : Nat
  minExponent : Int
  maxExponent : Int
  deriving DecidableEq, Repr

/-- The 64-bit format, in which JSON numbers that are no integers are kept. -/
def double : Format := ⟨53, -1074, 971⟩

/-- The 32-bit format, in which seconds are shown in messages. -/
def single : Format := ⟨24, -149, 104⟩

/-- `numerator / denominator`, as a pair whose denominator is positive. -/
structure Ratio where
  numerator : Nat
  denominator : Nat
  deriving DecidableEq, Repr

/-- The quotient divided by `2 ^ exponent`. -/
def Ratio.shift (r : Ratio) (exponent : Int) : Ratio :=
  ⟨r.numerator * Nat.pow 2 (-exponent).toNat, r.denominator * Nat.pow 2 exponent.toNat⟩

/-- The value of a magnitude. -/
def Magnitude.ratio (m : Magnitude) : Ratio :=
  ⟨m.significand * Nat.pow 2 m.exponent.toNat, Nat.pow 2 (-m.exponent).toNat⟩

def Magnitude.isZero (m : Magnitude) : Bool := m.significand == 0

/-- The integer nearest to a quotient; a tie goes to the even one. -/
def Ratio.nearest (r : Ratio) : Nat :=
  let whole := r.numerator / r.denominator
  let twice := 2 * (r.numerator % r.denominator)
  if twice < r.denominator then whole
  else if r.denominator < twice then whole + 1
  else if whole % 2 = 0 then whole else whole + 1

namespace Format

/-- Zero has the smallest exponent, so that every number has one representation. -/
def zero (f : Format) : Magnitude := ⟨0, f.minExponent⟩

/-- The exponent whose last place is worth keeping for a positive quotient. -/
def lastPlace (f : Format) (r : Ratio) : Int :=
  let guess : Int := (r.numerator.log2 : Int) - r.denominator.log2 - f.precision
  let scaled := r.shift guess
  let fits := scaled.numerator / scaled.denominator < Nat.pow 2 f.precision
  let exponent := if fits then guess else guess + 1
  max exponent f.minExponent

/-- The number nearest to a quotient, `none` when it exceeds the largest number. -/
def round (f : Format) (r : Ratio) : Option Magnitude :=
  if r.numerator = 0 then some f.zero
  else
    let exponent := f.lastPlace r
    let significand := (r.shift exponent).nearest
    let rounded : Magnitude :=
      if significand = Nat.pow 2 f.precision then ⟨Nat.pow 2 (f.precision - 1), exponent + 1⟩
      else ⟨significand, exponent⟩
    if rounded.significand = 0 then some f.zero
    else if rounded.exponent ≤ f.maxExponent then some rounded else none

/-- The product of a number and a quotient, rounded. -/
def scale (f : Format) (m : Magnitude) (by_ : Ratio) : Option Magnitude :=
  f.round ⟨m.ratio.numerator * by_.numerator, m.ratio.denominator * by_.denominator⟩

/-- The power of ten of a non-negative exponent, rounded. -/
def tenTo (f : Format) (exponent : Nat) : Option Magnitude := f.round ⟨Nat.pow 10 exponent, 1⟩

/-- The largest power of ten that one step of scaling uses. -/
def scalingLimit : Nat := 308

/-- Scales a number by a power of ten, in steps of at most `scalingLimit` and rounding each. -/
def scaleByTen (f : Format) (m : Magnitude) (exponent : Int) : Option Magnitude :=
  if exponent.natAbs ≤ scalingLimit then
    (f.tenTo exponent.natAbs).bind fun power =>
      if 0 ≤ exponent then f.scale m power.ratio
      else f.scale m ⟨power.ratio.denominator, power.ratio.numerator⟩
  else if m.isZero then some f.zero
  else if 0 ≤ exponent then none
  else
    (f.tenTo scalingLimit).bind fun power =>
      (f.scale m ⟨power.ratio.denominator, power.ratio.numerator⟩).bind fun smaller =>
        f.scaleByTen smaller (exponent + scalingLimit)
  termination_by exponent.natAbs
  decreasing_by simp only [scalingLimit] at *; omega

/-- Reads `digits · 10 ^ exponent`. Two roundings take place, so the last bit may differ from that
of the nearest number. -/
def ofDecimal? (f : Format) (digits : Nat) (exponent : Int) : Option Magnitude :=
  (f.round ⟨digits, 1⟩).bind fun m => f.scaleByTen m exponent

end Format

end ContentSync.Binary
