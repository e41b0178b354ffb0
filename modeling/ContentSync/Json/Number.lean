import ContentSync.Binary.Shortest

/-!
# JSON numbers

A number is an integer of 64 bits or a binary floating-point number; which of the two is decided by
how it was written, so `1` and `1.0` are different numbers.

* `Number.text` — integers in full; floats with the fewest digits that read back, positional from
  `1e-5` up to below `1e16`, and always with a point or an exponent;
* `Number.same` — numeric equality, for which the two zeros of the floats are equal.
-/

set_option autoImplicit false

namespace ContentSync

open Binary

/-- A JSON number. -/
inductive Number where
  | integer (value : Int)
  | float (negative : Bool) (size : Magnitude)
  deriving DecidableEq, Repr

namespace Number

/-- The largest integer that stays an integer. -/
def largestInteger : Nat := 0xFFFFFFFFFFFFFFFF

/-- The size of the smallest integer that stays an integer. -/
def smallestInteger : Nat := 0x8000000000000000

/-- Numeric equality. -/
def same : Number → Number → Bool
  | integer a, integer b => a == b
  | float s a, float t b => a == b && (s == t || a.isZero)
  | _, _ => false

/-- Where positional notation ends: the decimal point stands at most five places before the first
digit and at most sixteen after it. -/
def floatText (negative : Bool) (size : Magnitude) : String :=
  let d := double.shortest size
  let digits := (toString d.digits).toList
  let point : Int := digits.length + d.exponent
  let unsigned :=
    if size.isZero then "0.0"
    else if -5 < point ∧ point ≤ 16 then
      if 0 ≤ d.exponent then d.positional ++ ".0" else d.positional
    else
      let mantissa := match digits with
        | [] => []
        | [c] => [c]
        | c :: rest => c :: '.' :: rest
      let exponent := point - 1
      String.ofList mantissa ++ "e" ++ (if 0 ≤ exponent then "+" else "-")
        ++ toString exponent.natAbs
  if negative then "-" ++ unsigned else unsigned

/-- The text of a number, in output and as the id of an entity. -/
def text : Number → String
  | integer value => toString value
  | float negative size => floatText negative size

end Number

end ContentSync
