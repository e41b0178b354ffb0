import ContentSync.Binary.Format

/-!
# The shortest decimal that reads back

A number of a binary format stands for all reals that round to it. `Format.shortest` finds, among
the decimals with the fewest digits in that interval, the one nearest to the number; of two equally
near ones it takes the one with the even last digit.

* `Interval.holds` — the reals that round to a magnitude, ends included iff its significand is even;
* `Format.shortest` — the digits and the power of ten of their last place, without trailing zeros.
-/

set_option autoImplicit false

namespace ContentSync.Binary

/-- `digits · 10 ^ exponent`. -/
structure Decimal where
  digits : Nat
  exponent : Int
  deriving DecidableEq, Repr

/-- The value of a decimal. -/
def Decimal.ratio (d : Decimal) : Ratio :=
  ⟨d.digits * Nat.pow 10 d.exponent.toNat, Nat.pow 10 (-d.exponent).toNat⟩

/-- `a ≤ b` for quotients with positive denominators. -/
def Ratio.le (a b : Ratio) : Bool := a.numerator * b.denominator ≤ b.numerator * a.denominator

def Ratio.lt (a b : Ratio) : Bool := a.numerator * b.denominator < b.numerator * a.denominator

/-- The distance between two quotients, as a quotient. -/
def Ratio.distance (a b : Ratio) : Ratio :=
  let x := a.numerator * b.denominator
  let y := b.numerator * a.denominator
  ⟨(x - y) + (y - x), a.denominator * b.denominator⟩

/-- How many decimal digits a natural number has; `0` has none. -/
def decimalLength (n : Nat) : Nat :=
  if n = 0 then 0 else decimalLength (n / 10) + 1
  termination_by n
  decreasing_by omega

/-- The least `k` with `r < 10 ^ k`, for a positive quotient. -/
def Ratio.decimalPoint (r : Ratio) : Int :=
  if r.denominator ≤ r.numerator then decimalLength (r.numerator / r.denominator)
  else
    let d := decimalLength (r.denominator / r.numerator)
    if r.numerator * Nat.pow 10 (d - 1) = r.denominator then 2 - (d : Int) else 1 - (d : Int)

/-- The reals that round to one number. -/
structure Interval where
  low : Ratio
  high : Ratio
  closed : Bool

def Interval.holds (i : Interval) (r : Ratio) : Bool :=
  if i.closed then i.low.le r && r.le i.high else i.low.lt r && r.lt i.high

/-- The reals that round to `m`. Below a power of two the neighbour is half as far away. -/
def Format.interval (f : Format) (m : Magnitude) : Interval where
  low :=
    if m.significand = Nat.pow 2 (f.precision - 1) ∧ f.minExponent < m.exponent then
      (Magnitude.mk (4 * m.significand - 1) (m.exponent - 2)).ratio
    else (Magnitude.mk (2 * m.significand - 1) (m.exponent - 1)).ratio
  high := (Magnitude.mk (2 * m.significand + 1) (m.exponent - 1)).ratio
  closed := m.significand % 2 = 0

/-- The better of the two neighbours of `r` on the grid of `10 ^ exponent`, if one is in range. -/
def Interval.onGrid (i : Interval) (r : Ratio) (exponent : Int) : Option Decimal :=
  let scaled : Ratio :=
    ⟨r.numerator * Nat.pow 10 (-exponent).toNat, r.denominator * Nat.pow 10 exponent.toNat⟩
  let below : Decimal := ⟨scaled.numerator / scaled.denominator, exponent⟩
  let above : Decimal := ⟨below.digits + 1, exponent⟩
  match i.holds below.ratio, i.holds above.ratio with
  | false, false => none
  | true, false => some below
  | false, true => some above
  | true, true =>
    let d := below.ratio.distance r
    let e := above.ratio.distance r
    if d.lt e then some below
    else if e.lt d then some above
    else if below.digits % 2 = 0 then some below else some above

/-- Tries grids of ever more digits. -/
def Interval.search (i : Interval) (r : Ratio) (point : Int) : Nat → Nat → Decimal
  | 0, count => ⟨r.numerator / r.denominator, point - count⟩
  | tries + 1, count =>
    match i.onGrid r (point - count) with
    | some d => d
    | none => i.search r point tries (count + 1)

/-- Drops the zeros at the end of the digits. -/
def Decimal.trim (d : Decimal) : Decimal :=
  if d.digits = 0 then ⟨0, 0⟩
  else if d.digits % 10 = 0 then Decimal.trim ⟨d.digits / 10, d.exponent + 1⟩ else d
  termination_by d.digits
  decreasing_by omega

/-- The shortest decimal that rounds to a positive magnitude; zero has the digit `0`. -/
def Format.shortest (f : Format) (m : Magnitude) : Decimal :=
  if m.significand = 0 then ⟨0, 0⟩
  else ((f.interval m).search m.ratio m.ratio.decimalPoint f.precision 1).trim

/-- Digits and zeros around the decimal point, the point being written only where digits follow it:
`1250 · 10 ^ -1` is `125.0` before trimming and `125` after. -/
def Decimal.positional (d : Decimal) : String :=
  let digits := (toString d.digits).toList
  if 0 ≤ d.exponent then String.ofList (digits ++ List.replicate d.exponent.toNat '0')
  else
    let places := d.exponent.natAbs
    if places < digits.length then
      let whole := digits.length - places
      String.ofList (digits.take whole ++ '.' :: digits.drop whole)
    else String.ofList ('0' :: '.' :: List.replicate (places - digits.length) '0' ++ digits)

end ContentSync.Binary
